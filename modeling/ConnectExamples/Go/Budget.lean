import ConnectExamples.Go.Definitive
import ConnectExamples.Go.Interceptors
import ConnectExamples.Go.Timeline
import ConnectExamples.Retry.Budget
import Mathlib.Algebra.BigOperators.Ring.Finset
import Mathlib.Tactic.NormNum
import Mathlib.Tactic.Ring

/-!
# What a stack of retry interceptors costs

A client may install the retry interceptor more than once, and every layer
multiplies the attempts of the layers inside it: of `n` layers the innermost
makes up to `5 ^ n` calls, and the pauses of all layers together last up to
`15 * (5 ^ n - 1) / 4` seconds. Both are attained by a server that stays
unavailable. A deadline cuts all layers short at once: no layer starts more than
one attempt after it, however many layers there are.
-/

namespace ConnectExamples

namespace Go

open Retry Tracing

variable {σ α P : Type}

section Layers

variable (w : World σ) (base : UnaryFunc ℕ σ α P)

theorem interceptorStack_events (n : ℕ) (s : σ) :
    ((interceptorStack w base (n + 1)).exec s).events =
      ((retryPolicy.loop n (interceptorStack w base n) (waitBackoff w) 0 4).exec s).events :=
  retryUnary_events w n _ s

/-- The layers of a stack are numbered from the inside. -/
theorem layer_lt (env : σ → Result α P × σ) (n : ℕ) (s : σ) :
    ∀ ev ∈ ((interceptorStack w (Traced.lift env) n).exec s).events, ev.layer < n := by
  induction n generalizing s with
  | zero => simp [interceptorStack]
  | succ n ih =>
      rw [interceptorStack_events]
      refine Policy.forall_mem_loop retryPolicy n _ _ ?_ (fun _ _ _ => Nat.lt_succ_self n)
        (fun _ _ _ => Nat.lt_succ_self n) 0 4 s
      intro k t ev hev
      rw [exec_observeCall] at hev
      simp only [List.mem_cons, List.mem_append, List.not_mem_nil, or_false] at hev
      rcases hev with rfl | hmem | rfl
      · exact Nat.lt_succ_self n
      · exact (ih t ev hmem).trans (Nat.lt_succ_self n)
      · exact Nat.lt_succ_self n

end Layers

/-- The attempts of one layer. -/
def attempts (layer : ℕ) : Tally ℕ σ (Result α P) Duration (Error P) where
  of es := es.countP (Event.isCallOf layer)
  of_append _ _ := List.countP_append

/-- The length of a pause in nanoseconds. -/
def pauseLength : RetryEvent ℕ σ α P → ℕ
  | .wait _ _ _ d => d.toInt.toNat
  | _ => 0

/-- The pauses of all layers together, in nanoseconds. -/
def waited : Tally ℕ σ (Result α P) Duration (Error P) where
  of es := (es.map pauseLength).sum
  of_append _ _ := by simp

/-- The pauses of one layer, if none is cut short: 1, 2, 4 and 8 seconds. -/
def layerBackoff : ℕ := ∑ j ∈ Finset.range 4, (initialBackoff <<< j).toInt.toNat

theorem layerBackoff_eq : layerBackoff = 15000000000 := by decide

section Work

variable (w : World σ) (env : σ → Result α P × σ)

/-- One attempt of the outermost layer is an attempt of that layer and the attempts
that the layers inside it make. -/
theorem attempts_observeCall (layer n k : ℕ) (s : σ) :
    (attempts layer).of
        ((observeCall n k (interceptorStack w (Traced.lift env) n)).exec s).events =
      if n = layer then 1
      else (attempts layer).of ((interceptorStack w (Traced.lift env) n).exec s).events := by
  have hround : (attempts layer).of
      ((observeCall n k (interceptorStack w (Traced.lift env) n)).exec s).events =
        (attempts layer).of ((interceptorStack w (Traced.lift env) n).exec s).events +
          if n = layer then 1 else 0 := by
    rw [exec_observeCall]
    simp [attempts, List.countP_cons, Event.isCallOf]
  rw [hround]
  by_cases h : n = layer
  · have hinner : (attempts layer).of
        ((interceptorStack w (Traced.lift env) n).exec s).events = 0 := by
      simp only [attempts, List.countP_eq_zero]
      intro ev hev
      have hlt := layer_lt w env n s ev hev
      cases ev with
      | call j k t =>
          have hne : j ≠ layer := (h ▸ hlt : j < layer).ne
          simp [Event.isCallOf, hne]
      | _ => simp [Event.isCallOf]
    rw [if_pos h, if_pos h, hinner]
  · rw [if_neg h, if_neg h, Nat.add_zero]

theorem waited_pause (n k : ℕ) (d : Duration) (s s' : σ) (x : Option (Error P)) :
    waited.of [(.wait n k s d : RetryEvent ℕ σ α P), .woke n k s' x] = d.toInt.toNat := by
  simp [waited, pauseLength]

theorem waited_observeCall (n k : ℕ) (call : UnaryFunc ℕ σ α P) (s : σ) :
    waited.of ((observeCall n k call).exec s).events = waited.of (call.exec s).events := by
  simp [waited, pauseLength]

theorem pow_succ_sub (layer n : ℕ) (h : layer ≤ n) :
    5 ^ (n + 1 - layer) = (4 + 1) * 5 ^ (n - layer) := by
  rw [Nat.sub_add_comm h, Nat.pow_succ, Nat.mul_comm]

/-- Every layer makes at most five times the attempts of the layer around it. -/
theorem attempts_le (layer n : ℕ) (h : layer < n) (s : σ) :
    (attempts layer).of ((interceptorStack w (Traced.lift env) n).exec s).events ≤
      5 ^ (n - layer) := by
  induction n generalizing s with
  | zero => omega
  | succ n ih =>
      have hround : ∀ k t, (attempts layer).of
          ((observeCall n k (interceptorStack w (Traced.lift env) n)).exec t).events ≤
            5 ^ (n - layer) := by
        intro k t
        rw [attempts_observeCall]
        by_cases hlayer : n = layer
        · simp [hlayer]
        · simpa [hlayer] using ih (by omega) t
      have htally := Policy.loop_tally_le retryPolicy n _ (waitBackoff w) (attempts layer) hround
        (b := fun _ => 0) (fun _ _ _ _ => Nat.le_refl 0) 0 4 s
      rw [interceptorStack_events, pow_succ_sub layer n (by omega)]
      simpa using htally

theorem geometric_step (N n : ℕ) :
    N * (5 ^ (n + 1) - 1) = (4 + 1) * (N * (5 ^ n - 1)) + 4 * N := by
  have hpow : 0 < 5 ^ n := Nat.pow_pos (by decide)
  have hsum : 5 ^ (n + 1) - 1 = (4 + 1) * (5 ^ n - 1) + 4 := by
    rw [Nat.pow_succ]
    omega
  rw [hsum, Nat.mul_add, Nat.mul_left_comm, Nat.mul_comm N 4]

/-- The pauses of a stack last at most `15 * (5 ^ n - 1) / 4` seconds. -/
theorem waited_le (n : ℕ) (s : σ) :
    4 * waited.of ((interceptorStack w (Traced.lift env) n).exec s).events ≤
      layerBackoff * (5 ^ n - 1) := by
  induction n generalizing s with
  | zero => exact Nat.zero_le _
  | succ n ih =>
      have hround : ∀ k t, waited.of
          ((observeCall n k (interceptorStack w (Traced.lift env) n)).exec t).events ≤
            layerBackoff * (5 ^ n - 1) / 4 := by
        intro k t
        rw [waited_observeCall, Nat.le_div_iff_mul_le (by decide), Nat.mul_comm]
        exact ih t
      have htally := Policy.loop_tally_le retryPolicy n _ (waitBackoff w) waited hround
        (b := fun k => (initialBackoff <<< k).toInt.toNat)
        (fun k s s' x => (waited_pause n k _ s s' x).le) 0 4 s
      simp only [Nat.zero_add] at htally
      have hmul := Nat.mul_div_le (layerBackoff * (5 ^ n - 1)) 4
      rw [interceptorStack_events, geometric_step]
      simp only [layerBackoff] at hmul htally ⊢
      omega

/-- A stack around a server that stays unavailable fails in the same way. -/
theorem stack_saturated (hfail : ∀ s, isRetryable (env s).1.2 = true)
    (hquiet : ∀ d s, (w.select d s).1 = none) (n : ℕ) (s : σ) :
    isRetryable ((interceptorStack w (Traced.lift env) n).exec s).result.2 = true ∧
      (∀ layer < n, (attempts layer).of
        ((interceptorStack w (Traced.lift env) n).exec s).events = 5 ^ (n - layer)) ∧
      4 * waited.of ((interceptorStack w (Traced.lift env) n).exec s).events =
        layerBackoff * (5 ^ n - 1) := by
  induction n generalizing s with
  | zero => exact ⟨hfail s, by simp, rfl⟩
  | succ n ih =>
      have hpause : ∀ d s, (waitBackoff w d s : Option (Error P) × σ).1 = none := by
        intro d s
        rw [waitBackoff_of_timer (hquiet d s)]
      have hretry : ∀ t, retryPolicy.retry
          ((interceptorStack w (Traced.lift env) n).exec t).result = true := fun t => (ih t).1
      have hwaited : ∀ k t, waited.of
          ((observeCall n k (interceptorStack w (Traced.lift env) n)).exec t).events =
            layerBackoff * (5 ^ n - 1) / 4 := by
        intro k t
        rw [waited_observeCall, ← (ih t).2.2, Nat.mul_div_cancel_left _ (by decide)]
      obtain ⟨htotal, o, hresult, ho⟩ := Policy.loop_tally_eq retryPolicy n _ (waitBackoff w)
        waited hwaited (b := fun k => (initialBackoff <<< k).toInt.toNat)
        (fun k s s' => waited_pause n k _ s s' none) hretry hpause 0 4 s
      refine ⟨?_, fun layer hlayer => ?_, ?_⟩
      · change isRetryable ((retryUnary w n _).exec s).result.2 = true
        rw [retryUnary_eq, Traced.exec_bind]
        change isRetryable ((finish w ((retryPolicy.loop n _ (waitBackoff w) 0 4).exec
          s).result).exec _).result.2 = true
        rw [hresult]
        obtain ⟨res, _ | err⟩ := o
        · cases ho
        · exact ho
      · have hround : ∀ k t, (attempts layer).of
            ((observeCall n k (interceptorStack w (Traced.lift env) n)).exec t).events =
              5 ^ (n - layer) := by
          intro k t
          rw [attempts_observeCall]
          by_cases h : n = layer
          · simp [h]
          · simpa [h] using (ih t).2.1 layer (by omega)
        have htally := (Policy.loop_tally_eq retryPolicy n _ (waitBackoff w) (attempts layer)
          hround (b := fun _ => 0) (fun _ _ _ => rfl) hretry hpause 0 4 s).1
        rw [interceptorStack_events, pow_succ_sub layer n (by omega)]
        simpa using htally
      · have hdvd : 4 * (layerBackoff * (5 ^ n - 1) / 4) = layerBackoff * (5 ^ n - 1) := by
          rw [← (ih s).2.2, Nat.mul_div_cancel_left _ (by decide)]
        rw [interceptorStack_events, geometric_step]
        simp only [layerBackoff, Nat.zero_add] at htotal hdvd ⊢
        omega

/-- Of `n` layers of the retry interceptor, a layer makes at most `5 ^ (n - layer)`
attempts, and the pauses of all layers together last at most `15 * (5 ^ n - 1) / 4`
seconds. Against a server whose every answer is transient, and with a context that
is never done, both bounds are attained, and the stack fails with a transient error
of its own. -/
theorem stack_work (n : ℕ) (s : σ) :
    (∀ layer < n, ((interceptorStack w (Traced.lift env) n).exec s).events.countP
        (Event.isCallOf layer) ≤ 5 ^ (n - layer)) ∧
      4 * (((interceptorStack w (Traced.lift env) n).exec s).events.map pauseLength).sum ≤
        15000000000 * (5 ^ n - 1) ∧
      ((∀ s, isRetryable (env s).1.2 = true) → (∀ d s, (w.select d s).1 = none) →
        isRetryable ((interceptorStack w (Traced.lift env) n).exec s).result.2 = true ∧
          (∀ layer < n, ((interceptorStack w (Traced.lift env) n).exec s).events.countP
            (Event.isCallOf layer) = 5 ^ (n - layer)) ∧
          4 * (((interceptorStack w (Traced.lift env) n).exec s).events.map pauseLength).sum =
            15000000000 * (5 ^ n - 1)) := by
  rw [← layerBackoff_eq]
  exact ⟨fun layer h => attempts_le w env layer n h s, waited_le w env n s,
    fun hfail hquiet => stack_saturated w env hfail hquiet n s⟩

/-- Two layers around a transport that is refused every time; the state counts the
attempts. -/
def refusedRun : Run (RetryEvent ℕ ℕ Unit Unit) (Result Unit Unit) ℕ :=
  (interceptorStack (background fun n => (n, n))
    (Traced.lift fun n => ((none, some connectionRefused), n + 1)) 2).exec 0

/-- Both bounds are attained: 25 attempts and five, and 90 seconds of pauses. -/
theorem refusedRun_work : isRetryable refusedRun.result.2 = true ∧
    refusedRun.events.countP (Event.isCallOf 0) = 25 ∧
      refusedRun.events.countP (Event.isCallOf 1) = 5 ∧
      (refusedRun.events.map pauseLength).sum = 90000000000 := by
  have hrefused : isRetryable (some connectionRefused) = true := by decide
  obtain ⟨hresult, hattempts, hwaited⟩ :=
    (stack_work (background fun n => (n, n))
      (fun n : ℕ => ((none, some connectionRefused), n + 1)) 2 0).2.2
      (fun _ => hrefused) (fun _ _ => rfl)
  refine ⟨hresult, hattempts 0 (by decide), hattempts 1 (by decide), ?_⟩
  exact Nat.eq_of_mul_eq_mul_left (by decide) hwaited

end Work

section Clock

variable {T υ α P : Type} [Field T] [LinearOrder T] [IsStrictOrderedRing T]

namespace Timeline

variable (tl : Timeline T υ α P) {C : T}

theorem nanoseconds_nonneg (d : Duration) : (0 : T) ≤ nanoseconds d :=
  Int.cast_nonneg (le_max_left 0 d.toInt)

omit [LinearOrder T] [IsStrictOrderedRing T] in
theorem nanoseconds_backoff_sum :
    ∑ j ∈ Finset.range 4, (nanoseconds (initialBackoff <<< (0 + j)) : T) = 15000000000 := by
  have hterm : ∀ j ∈ Finset.range 4,
      (nanoseconds (initialBackoff <<< (0 + j)) : T) = 1000000000 * 2 ^ j := by
    intro j hj
    have hpos : (0 : ℤ) ≤ 1000000000 * 2 ^ j := by positivity
    rw [Nat.zero_add, nanoseconds, initialBackoff_shiftLeft j (Finset.mem_range.mp hj),
      max_eq_right hpos]
    push_cast
    rfl
  rw [Finset.sum_congr rfl hterm, ← Finset.mul_sum]
  simp only [Finset.sum_range_succ, Finset.sum_range_zero]
  norm_num

omit [IsStrictOrderedRing T] in
/-- The joins that a layer allocates take no time. -/
theorem now_finish (exit : Exit (Result α P) (Error P)) (s : Clocked T υ) :
    ((finish (ι := ℕ) tl.world exit).exec s).state.now = s.now := by
  rcases exit with ⟨res, _ | err⟩ | ⟨⟨res, err⟩, waitErr⟩
  · rfl
  · rfl
  · rfl

omit [IsStrictOrderedRing T] in
theorem now_interceptorStack (base : UnaryFunc ℕ (Clocked T υ) α P) (n : ℕ)
    (s : Clocked T υ) :
    ((interceptorStack tl.world base (n + 1)).exec s).state.now =
      ((retryPolicy.loop n (interceptorStack tl.world base n) (waitBackoff tl.world) 0 4).exec
        s).state.now := by
  change ((retryUnary tl.world n _).exec s).state.now = _
  rw [retryUnary_eq, Traced.exec_bind]
  exact tl.now_finish _ _

/-- A stack of interceptors is prompt. -/
theorem prompt_interceptorStack (hcall : ∀ s, (tl.call s).duration ≤ C) {D : T}
    (hD : tl.done = some D) (n : ℕ) (s : Clocked T υ) :
    Prompt Clocked.now D C s
      ((interceptorStack tl.world (Traced.lift tl.next) n).exec s) := by
  have hC : 0 ≤ C := (tl.call s).duration_nonneg.trans (hcall s)
  induction n generalizing s with
  | zero =>
      refine ⟨le_add_of_nonneg_right (tl.call s).duration_nonneg, by simp [interceptorStack],
        add_le_add (le_max_left _ _) (hcall s), by simp [interceptorStack]⟩
  | succ n ih =>
      have hloop := Policy.prompt_loop retryPolicy n _ tl.obeys hD hC ih
        (fun t ev hev => (layer_lt tl.world tl.next n t ev hev).ne) 0 4
        (fun j _ hj => backoff_pos j (hj.trans_eq (Nat.zero_add 4))) s
      exact hloop.congr (interceptorStack_events tl.world _ n s)
        (tl.now_interceptorStack _ n s)

/-- Without a deadline a stack ends when its attempts and its pauses are spent. -/
theorem now_interceptorStack_le (hcall : ∀ s, (tl.call s).duration ≤ C) (n : ℕ)
    (s : Clocked T υ) :
    ((interceptorStack tl.world (Traced.lift tl.next) n).exec s).state.now ≤
      s.now + (5 ^ n * C + 15000000000 * (5 ^ n - 1) / 4) := by
  have hC : 0 ≤ C := (tl.call s).duration_nonneg.trans (hcall s)
  induction n generalizing s with
  | zero =>
      have hnext : s.now + (tl.call s).duration ≤ s.now + C := add_le_add (le_refl _) (hcall s)
      rw [pow_zero, sub_self, mul_zero, zero_div, add_zero, one_mul]
      exact hnext
  | succ n ih =>
      have hpow : (1 : T) ≤ 5 ^ n := one_le_pow₀ (by norm_num)
      have hB : (0 : T) ≤ 5 ^ n * C + 15000000000 * (5 ^ n - 1) / 4 := by
        have hsub : (0 : T) ≤ 5 ^ n - 1 := sub_nonneg.mpr hpow
        positivity
      have hloop := Policy.loop_elapsed_le retryPolicy n _ ih
        tl.obeys.prompt hB (fun _ => nanoseconds_nonneg _) 0 4 s
      rw [tl.now_interceptorStack]
      refine hloop.trans (add_le_add_right ?_ _)
      simp only [retryPolicy, nanoseconds_backoff_sum, nsmul_eq_mul]
      rw [pow_succ]
      push_cast
      apply le_of_eq
      ring

/-- On every timeline whose calls take at most `C`, a stack of `n` retry
interceptors ends within `5 ^ n` calls and `15 * (5 ^ n - 1) / 4` seconds; and when
the context becomes done at `D`, it ends within one more call, and no layer starts
more than one attempt at or after `D`. -/
theorem stack_deadline (hcall : ∀ s, (tl.call s).duration ≤ C) (n : ℕ) (s : Clocked T υ) :
    let r := (interceptorStack tl.world (Traced.lift tl.next) n).exec s
    r.state.now ≤ s.now + (5 ^ n * C + 15000000000 * (5 ^ n - 1) / 4) ∧
      ∀ D, tl.done = some D → r.state.now ≤ max s.now D + C ∧
        ∀ layer, r.events.countP (Event.isLateCallOf Clocked.now D layer) ≤ 1 := by
  intro r
  refine ⟨tl.now_interceptorStack_le hcall n s, fun D hD => ?_⟩
  have hprompt := tl.prompt_interceptorStack hcall hD n s
  exact ⟨hprompt.end_le, hprompt.late⟩

end Timeline

end Clock

/-- Two layers over the timeline `tie`, on which the first timer fires at the very
instant of the cancellation. -/
theorem tie_stack_deadline :
    ((interceptorStack tie.world (Traced.lift tie.next) 2).exec ⟨0, ()⟩).state.now ≤
        max 0 1000000000 + 0 ∧
      ∀ layer, ((interceptorStack tie.world (Traced.lift tie.next) 2).exec
        ⟨0, ()⟩).events.countP (Event.isLateCallOf Clocked.now 1000000000 layer) ≤ 1 :=
  (tie.stack_deadline (fun _ => le_refl 0) 2 ⟨0, ()⟩).2 1000000000 rfl

end Go

end ConnectExamples
