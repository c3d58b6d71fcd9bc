import ConnectExamples.Retry.Deadline
import Mathlib.Algebra.BigOperators.Group.Finset.Basic
import Mathlib.Algebra.Order.BigOperators.Group.Finset
import Mathlib.Tactic.Abel

/-!
# What a loop around a loop costs

The attempt of an outer loop may be a whole inner loop, so a bound for one
attempt has to become a bound for the loop around it. `loop_tally_le` and
`loop_tally_eq` do this for any measure of traces that adds up: with `a` for an
attempt and `b k` for the pause after attempt `k`, a loop with `n` more attempts
costs at most `(n + 1) * a + ∑ j < n, b (k + j)`, and exactly that if every
attempt asks for another one. `loop_elapsed_le` is the same bound for a clock,
and `Prompt` is what a loop passes on to the loop around it when there is a
deadline.
-/

namespace Retry

open Tracing

namespace Event

variable {ι σ ω δ χ T : Type} [DecidableEq ι]

def layer : Event ι σ ω δ χ → ι
  | call i _ _ | returned i _ _ _ | wait i _ _ _ | woke i _ _ _ => i

/-- An attempt of layer `i` starts here. -/
def isCallOf (i : ι) : Event ι σ ω δ χ → Bool
  | call j _ _ => decide (j = i)
  | _ => false

/-- An attempt of layer `i` starts here, at or after the instant `D`. -/
def isLateCallOf [LinearOrder T] (clock : σ → T) (D : T) (i : ι) : Event ι σ ω δ χ → Bool
  | call j _ s => decide (j = i) && decide (D ≤ clock s)
  | _ => false

end Event

theorem sum_range_shift {M : Type} [AddCommMonoid M] (b : ℕ → M) (k n : ℕ) :
    ∑ j ∈ Finset.range (n + 1), b (k + j) = b k + ∑ j ∈ Finset.range n, b (k + 1 + j) := by
  rw [Finset.sum_range_succ', add_comm]
  simp only [Nat.add_zero, Nat.add_assoc, Nat.add_comm 1]

/-- A measure of traces that adds up. -/
structure Tally (ι σ ω δ χ : Type) where
  of : List (Event ι σ ω δ χ) → ℕ
  of_append : ∀ es es', of (es ++ es') = of es + of es'

namespace Policy

section Tally

variable {ι σ ω δ χ : Type} (p : Policy ω δ) (i : ι)
  (call : Traced (Event ι σ ω δ χ) σ ω) (pause : δ → σ → Option χ × σ)

/-- What holds of the events of an attempt and of the pauses holds of every event
of the loop. -/
theorem forall_mem_loop {good : Event ι σ ω δ χ → Prop}
    (hcall : ∀ k s, ∀ ev ∈ ((observeCall i k call).exec s).events, good ev)
    (hwait : ∀ k s d, good (.wait i k s d)) (hwoke : ∀ k s x, good (.woke i k s x))
    (k n : ℕ) (s : σ) : ∀ ev ∈ ((loop p i call pause k n).exec s).events, good ev := by
  have hround (k : ℕ) (s : σ) (x : Option χ) : ∀ ev ∈ ((observeCall i k call).exec s).events ++
      [.wait i k (call.exec s).state (p.backoff k),
        .woke i k (pause (p.backoff k) (call.exec s).state).2 x], good ev := by
    intro ev hev
    simp only [List.mem_append, List.mem_cons, List.not_mem_nil, or_false] at hev
    rcases hev with hmem | rfl | rfl
    · exact hcall k s ev hmem
    · exact hwait k _ _
    · exact hwoke k _ x
  refine loop_rule p i call pause (motive := fun _ _ _ r => ∀ ev ∈ r.events, good ev)
    ?_ ?_ ?_ k n s
  · intro k n s _
    exact hcall k s
  · intro k n s x _ _
    exact hround k s (some x)
  · intro k n s r _ _ ih ev hev
    rcases List.mem_append.mp hev with hmem | hmem
    · exact hround k s none ev hmem
    · exact ih ev hmem

variable (μ : Tally ι σ ω δ χ) {a : ℕ} {b : ℕ → ℕ}

theorem loop_tally_le (hcall : ∀ k s, μ.of ((observeCall i k call).exec s).events ≤ a)
    (hpause : ∀ k s s' x, μ.of [.wait i k s (p.backoff k), .woke i k s' x] ≤ b k)
    (k n : ℕ) (s : σ) :
    μ.of ((loop p i call pause k n).exec s).events ≤
      (n + 1) * a + ∑ j ∈ Finset.range n, b (k + j) := by
  refine loop_rule p i call pause
    (motive := fun k n _ r => μ.of r.events ≤ (n + 1) * a + ∑ j ∈ Finset.range n, b (k + j))
    ?_ ?_ ?_ k n s
  · intro k n s _
    have hround := hcall k s
    rw [Nat.add_mul n 1 a, Nat.one_mul]
    exact hround.trans (by omega)
  · intro k n s x _ _
    have hround := hcall k s
    have hinterrupted := hpause k (call.exec s).state
      (pause (p.backoff k) (call.exec s).state).2 (some x)
    rw [sum_range_shift, Nat.add_mul (n + 1) 1 a, Nat.one_mul, μ.of_append]
    omega
  · intro k n s r _ _ ih
    have hround := hcall k s
    have hwoke := hpause k (call.exec s).state
      (pause (p.backoff k) (call.exec s).state).2 none
    rw [Run.after_events, sum_range_shift, Nat.add_mul (n + 1) 1 a, Nat.one_mul, μ.of_append,
      μ.of_append]
    omega

/-- Where every attempt asks for another one and no pause is interrupted the
bound is attained, and the loop ends with an outcome that asks for more. -/
theorem loop_tally_eq (hcall : ∀ k s, μ.of ((observeCall i k call).exec s).events = a)
    (hpause : ∀ k s s', μ.of [.wait i k s (p.backoff k), .woke i k s' none] = b k)
    (hretry : ∀ s, p.retry (call.exec s).result = true)
    (hquiet : ∀ d s, (pause d s).1 = none) (k n : ℕ) (s : σ) :
    μ.of ((loop p i call pause k n).exec s).events =
        (n + 1) * a + ∑ j ∈ Finset.range n, b (k + j) ∧
      ∃ o, ((loop p i call pause k n).exec s).result = .done o ∧ p.retry o = true := by
  induction n generalizing k s with
  | zero =>
      rw [loop_done p i call pause k 0 s (.inl rfl)]
      exact ⟨by simpa using hcall k s, _, rfl, hretry s⟩
  | succ n ih =>
      obtain ⟨htally, hasks⟩ := ih (k + 1) (pause (p.backoff k) (call.exec s).state).2
      rw [loop_again p i call pause k n s (hretry s) (hquiet _ _)]
      refine ⟨?_, hasks⟩
      rw [Run.after_events, μ.of_append, μ.of_append, htally, sum_range_shift, hcall k s,
        hpause, Nat.add_mul (n + 1) 1 a, Nat.one_mul]
      omega

end Tally

section Clock

variable {ι σ ω δ χ T : Type} [AddCommGroup T] [LinearOrder T] [IsOrderedAddMonoid T]
  (p : Policy ω δ) (i : ι) (call : Traced (Event ι σ ω δ χ) σ ω)
  {clock : σ → T} {len : δ → T} {done : Option T} {env : σ → ω × σ}
  {pause : δ → σ → Option χ × σ}

/-- A loop around attempts of length at most `B`, with pauses that do not outlast
their length. -/
theorem loop_elapsed_le {B : T} (hcall : ∀ s, clock (call.exec s).state ≤ clock s + B)
    (hpause : ∀ d s, clock (pause d s).2 ≤ clock s + len d) (hB : 0 ≤ B)
    (hlen : ∀ k, 0 ≤ len (p.backoff k)) (k n : ℕ) (s : σ) :
    clock ((loop p i call pause k n).exec s).state ≤
      clock s + ((n + 1) • B + ∑ j ∈ Finset.range n, len (p.backoff (k + j))) := by
  induction n generalizing k s with
  | zero =>
      rw [loop_done p i call pause k 0 s (.inl rfl)]
      simpa [one_nsmul] using hcall s
  | succ n ih =>
      have hrest : 0 ≤ (n + 1) • B + ∑ j ∈ Finset.range n, len (p.backoff (k + 1 + j)) :=
        add_nonneg (nsmul_nonneg hB _) (Finset.sum_nonneg fun j _ => hlen _)
      have hsplit : clock s +
          ((n + 1 + 1) • B + ∑ j ∈ Finset.range (n + 1), len (p.backoff (k + j))) =
            clock s + B + len (p.backoff k) +
              ((n + 1) • B + ∑ j ∈ Finset.range n, len (p.backoff (k + 1 + j))) := by
        rw [sum_range_shift fun j => len (p.backoff j), succ_nsmul B (n + 1)]
        abel
      have hround : clock (call.exec s).state + len (p.backoff k) ≤
          clock s + B + len (p.backoff k) := add_le_add_left (hcall s) _
      rw [hsplit]
      cases hretry : p.retry (call.exec s).result with
      | false =>
          rw [loop_done p i call pause k (n + 1) s (.inr hretry)]
          exact ((hcall s).trans (le_add_of_nonneg_right (hlen k))).trans
            (le_add_of_nonneg_right hrest)
      | true =>
          have hwait := (hpause (p.backoff k) (call.exec s).state).trans hround
          cases hx : (pause (p.backoff k) (call.exec s).state).1 with
          | some x =>
              rw [loop_interrupted p i call pause k n s x hretry hx]
              exact hwait.trans (le_add_of_nonneg_right hrest)
          | none =>
              rw [loop_again p i call pause k n s hretry hx]
              exact (ih (k + 1) _).trans (add_le_add_left hwait _)

end Clock

end Policy

section Deadline

variable {ι σ ω δ χ T ρ : Type} [DecidableEq ι] [LinearOrder T] {clock : σ → T} {D : T}

/-- Attempts that start before the deadline are not late. -/
theorem countP_isLateCallOf_of_lt {es : List (Event ι σ ω δ χ)}
    (h : ∀ ev ∈ es, ev.isCall = true → clock ev.state < D) (j : ι) :
    es.countP (Event.isLateCallOf clock D j) = 0 := by
  rw [List.countP_eq_zero]
  intro ev hev
  cases ev with
  | call i k s =>
      have hearly : clock s < D := h _ hev rfl
      simp [Event.isLateCallOf, hearly]
  | _ => simp [Event.isLateCallOf]

theorem countP_isLateCallOf_of_layer {es : List (Event ι σ ω δ χ)} {j : ι}
    (h : ∀ ev ∈ es, ev.layer ≠ j) : es.countP (Event.isLateCallOf clock D j) = 0 := by
  rw [List.countP_eq_zero]
  intro ev hev
  cases ev with
  | call i k s =>
      have hother : i ≠ j := h _ hev
      simp [Event.isLateCallOf, hother]
  | _ => simp [Event.isLateCallOf]

variable [AddCommGroup T] {C : T}

/-- What is bounded of a run from `s` around a deadline `D`, when a call takes at
most `C`: no event is later than the end, the end is not later than `C` after the
deadline, and of each layer at most one attempt is late. -/
structure Prompt (clock : σ → T) (D C : T) (s : σ) (r : Run (Event ι σ ω δ χ) ρ σ) : Prop where
  le : clock s ≤ clock r.state
  le_end : ∀ ev ∈ r.events, clock ev.state ≤ clock r.state
  end_le : clock r.state ≤ max (clock s) D + C
  late : ∀ j, r.events.countP (Event.isLateCallOf clock D j) ≤ 1

/-- The result of a run, and how it is spelled, do not matter. -/
theorem Prompt.congr {ρ' : Type} {s : σ} {r : Run (Event ι σ ω δ χ) ρ σ}
    {r' : Run (Event ι σ ω δ χ) ρ' σ} (h : Prompt clock D C s r) (hevents : r'.events = r.events)
    (hclock : clock r'.state = clock r.state) : Prompt clock D C s r' := by
  refine ⟨?_, ?_, ?_, ?_⟩
  · rw [hclock]
    exact h.le
  · rw [hevents, hclock]
    exact h.le_end
  · rw [hclock]
    exact h.end_le
  · rw [hevents]
    exact h.late

variable [IsOrderedAddMonoid T]

/-- A run that starts no later than the deadline stays prompt behind events that
are not later than its start and hold no late attempt. -/
theorem Prompt.after {s t : σ} {r : Run (Event ι σ ω δ χ) ρ σ} {es : List (Event ι σ ω δ χ)}
    (h : Prompt clock D C t r) (hst : clock s ≤ clock t) (ht : clock t ≤ D)
    (hcalls : ∀ ev ∈ es, ev.isCall = true → clock ev.state < D)
    (hes : ∀ ev ∈ es, clock ev.state ≤ clock t) : Prompt clock D C s (r.after es) where
  le := hst.trans h.le
  le_end ev hev := by
    rcases List.mem_append.mp hev with hmem | hmem
    · exact (hes ev hmem).trans h.le
    · exact h.le_end ev hmem
  end_le := by
    have hend := h.end_le
    rw [max_eq_right ht] at hend
    exact hend.trans (add_le_add_left (le_max_right _ _) C)
  late j := by
    rw [Run.after_events, List.countP_append, countP_isLateCallOf_of_lt hcalls, Nat.zero_add]
    exact h.late j

namespace Policy

variable (p : Policy ω δ) (i : ι) (call : Traced (Event ι σ ω δ χ) σ ω)
  {len : δ → T} {done : Option T} {env : σ → ω × σ} {pause : δ → σ → Option χ × σ}

omit [IsOrderedAddMonoid T] in
/-- One attempt of layer `i`, with its start and its end. -/
theorem prompt_observeCall {s : σ} (hcall : Prompt clock D C s (call.exec s))
    (hfresh : ∀ ev ∈ (call.exec s).events, ev.layer ≠ i) (k : ℕ) :
    Prompt clock D C s ((observeCall i k call).exec s) := by
  rw [exec_observeCall]
  refine ⟨hcall.le, fun ev hev => ?_, hcall.end_le, fun j => ?_⟩
  · simp only [List.mem_cons, List.mem_append, List.not_mem_nil, or_false] at hev
    rcases hev with rfl | hmem | rfl
    · exact hcall.le
    · exact hcall.le_end ev hmem
    · exact le_refl _
  · simp only [List.countP_cons, List.countP_append, List.countP_nil, Event.isLateCallOf,
      Bool.false_eq_true, if_false, Nat.add_zero]
    by_cases hj : i = j
    · -- the attempts that the call makes are those of other layers
      rw [countP_isLateCallOf_of_layer (hj ▸ hfresh), Nat.zero_add]
      by_cases hlate : D ≤ clock s <;> simp [hj, hlate]
    · simpa [hj] using hcall.late j

/-- A loop around prompt attempts is prompt: an attempt that ends at or after the
deadline is the last one, because the pause after it would be interrupted. -/
theorem prompt_loop (hobeys : Obeys clock len done env pause) (hD : D ∈ done) (hC : 0 ≤ C)
    (hcall : ∀ s, Prompt clock D C s (call.exec s))
    (hfresh : ∀ s, ∀ ev ∈ (call.exec s).events, ev.layer ≠ i) (k n : ℕ)
    (hlen : ∀ j, k ≤ j → j < k + n → 0 < len (p.backoff j)) (s : σ) :
    Prompt clock D C s ((loop p i call pause k n).exec s) := by
  induction n generalizing k s with
  | zero =>
      have hround := prompt_observeCall i call (hcall s) (hfresh s) k
      rw [loop_done p i call pause k 0 s (.inl rfl)]
      exact hround.congr rfl (by rw [exec_observeCall])
  | succ n ih =>
      have hround := prompt_observeCall i call (hcall s) (hfresh s) k
      have hpos : 0 < len (p.backoff k) := hlen k (Nat.le_refl k) (by omega)
      have hpause := hobeys.pause_le (p.backoff k) (call.exec s).state hpos
      have hwoke := hobeys.prompt_done D hD (p.backoff k) (call.exec s).state
      cases hretry : p.retry (call.exec s).result with
      | false =>
          rw [loop_done p i call pause k (n + 1) s (.inr hretry)]
          exact hround.congr rfl (by rw [exec_observeCall])
      | true =>
          have hle : ∀ x, ∀ ev ∈ ((observeCall i k call).exec s).events ++
              [.wait i k (call.exec s).state (p.backoff k),
                .woke i k (pause (p.backoff k) (call.exec s).state).2 x],
              clock ev.state ≤ clock (pause (p.backoff k) (call.exec s).state).2 := by
            intro x ev hev
            simp only [List.mem_append, List.mem_cons, List.not_mem_nil, or_false] at hev
            rcases hev with hmem | rfl | rfl
            · exact (hround.le_end ev hmem).trans hpause
            · exact hpause
            · exact le_refl _
          cases hx : (pause (p.backoff k) (call.exec s).state).1 with
          | some x =>
              rw [loop_interrupted p i call pause k n s x hretry hx]
              refine ⟨(hcall s).le.trans hpause, hle (some x), ?_, fun j => ?_⟩
              · have hD : D ≤ max (clock s) D + C :=
                  (le_max_right _ _).trans (le_add_of_nonneg_right hC)
                exact hwoke.trans (max_le (hcall s).end_le hD)
              · rw [List.countP_append]
                simpa [Event.isLateCallOf] using hround.late j
          | none =>
              have hearly : clock (call.exec s).state < D := by
                by_contra hlate
                exact hobeys.late D hD (p.backoff k) (call.exec s).state (not_lt.mp hlate)
                  hpos hx
              rw [loop_again p i call pause k n s hretry hx]
              rw [max_eq_right hearly.le] at hwoke
              have tail := ih (k + 1) (fun j hj hj' => hlen j (by omega) (by omega))
                (pause (p.backoff k) (call.exec s).state).2
              refine tail.after ((hcall s).le.trans hpause) hwoke ?_ (hle none)
              intro ev hev hev'
              simp only [List.mem_append, List.mem_cons, List.not_mem_nil, or_false] at hev
              rcases hev with hmem | rfl | rfl
              · exact (hround.le_end ev hmem).trans_lt hearly
              · simp [Event.isCall] at hev'
              · simp [Event.isCall] at hev'

end Policy

end Deadline

end Retry
