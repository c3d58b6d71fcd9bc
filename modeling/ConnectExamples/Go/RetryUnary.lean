import ConnectExamples.Go.Retryable
import ConnectExamples.Retry.Trace
import Mathlib.Data.Rat.Defs

/-!
# The retry loop of the Go client

`retryUnary` runs `next` up to `maxRetries` times and calls `waitBackoff`
between the attempts. A run depends on a `World`: which case of the `select` in
`waitBackoff` proceeds, and where `errors.Join` allocates. Both are arbitrary
functions of the state, and so is `next`, so a theorem about every world and
every `next` covers every context and every server.

`retryUnary_eq` identifies the loop with the policy `retryPolicy`: the bounds,
the stopping test and the shift agree at every attempt, and the tail of the
source function is never reached.
-/

namespace ConnectExamples

namespace Go

open Retry Tracing

/-- `time.Duration`, a signed number of nanoseconds. -/
abbrev Duration := BitVec 64

def second : Duration := 1000000000

def Duration.seconds (d : Duration) : ℚ := d.toInt / 1000000000

def maxRetries : ℕ := 5

def initialBackoff : Duration := second

/-- What `ctx.Err()` returns once the context is done. -/
inductive ContextError where
  | canceled
  | deadlineExceeded
  deriving DecidableEq, Repr

def ContextError.value : ContextError → ErrorValue
  | .canceled => .canceled
  | .deadlineExceeded => .deadlineExceeded

def ContextError.toError {P : Type} : ContextError → Error P
  | .canceled => Go.canceled
  | .deadlineExceeded => Go.deadlineExceeded

/-- What a run draws on besides `next`: `select d` is the outcome of the select
statement over `ctx.Done()` and a timer of `d`, with the value of `ctx.Err()` if
the context wins, and `alloc` hands out an address. -/
structure World (σ : Type) where
  select : Duration → σ → Option ContextError × σ
  alloc : σ → ℕ × σ

section Source

variable {ι σ α P : Type}

/-- The events of the loop: a pause is interrupted by the error that
`waitBackoff` returns. -/
abbrev RetryEvent (ι σ α P : Type) := Event ι σ (Result α P) Duration (Error P)

/-- `connect.UnaryFunc`, applied to the context and the request of the run. -/
abbrev UnaryFunc (ι σ α P : Type) := Traced (RetryEvent ι σ α P) σ (Result α P)

def waitBackoff (w : World σ) (d : Duration) (s : σ) : Option (Error P) × σ :=
  match w.select d s with
  | (some e, s) =>
      let (address, s) := w.alloc s
      (errorsJoin address [some errRetryAborted, some e.toError], s)
  | (none, s) => (none, s)

/-- The loop of `retryUnary`, over the values of `attempt` that are left. -/
def retryLoop (w : World σ) (layer : ι) (next : UnaryFunc ι σ α P) :
    Option (Error P) → List ℕ →
      Traced (RetryEvent ι σ α P) σ (Flow (Result α P) (Option (Error P)))
  | last, [] => return .fell last
  | _, attempt :: rest => do
      let (res, err) ← observeCall layer attempt next
      match err with
      | none => return .ret (res, none)
      | some err =>
          if !isRetryable (some err) || attempt == maxRetries - 1 then
            return .ret (none, some err)
          else
            let d := initialBackoff <<< attempt
            match ← observeWait layer attempt d (waitBackoff w d) with
            | some waitErr =>
                let address ← Traced.lift w.alloc
                return .ret (none, errorsJoin address [some err, some waitErr])
            | none => retryLoop w layer next (some err) rest

def retryUnary (w : World σ) (layer : ι) (next : UnaryFunc ι σ α P) :
    Traced (RetryEvent ι σ α P) σ (Result α P) := do
  match ← retryLoop w layer next none (List.range maxRetries) with
  | .ret result => return result
  | .fell last => return (none, last)

end Source

section WaitBackoff

variable {σ P : Type}

def waitError (inner : ℕ) (e : ContextError) : Error P :=
  .node ⟨.other inner, .plain, fun _ => false⟩ [errRetryAborted, e.toError]

theorem waitBackoff_of_timer {w : World σ} {d : Duration} {s : σ}
    (h : (w.select d s).1 = none) :
    (waitBackoff w d s : Option (Error P) × σ) = (none, (w.select d s).2) := by
  unfold waitBackoff
  split
  · rename_i e s' hselect
    simp [hselect] at h
  · rename_i s' hselect
    rw [hselect]

theorem waitBackoff_of_done {w : World σ} {d : Duration} {s : σ} {e : ContextError}
    (h : (w.select d s).1 = some e) :
    (waitBackoff w d s : Option (Error P) × σ) =
      (some (waitError (w.alloc (w.select d s).2).1 e),
        (w.alloc (w.select d s).2).2) := by
  unfold waitBackoff
  split
  · rename_i e' s' hselect
    rw [hselect] at h ⊢
    obtain rfl := Option.some.inj h
    rfl
  · rename_i s' hselect
    simp [hselect] at h

/-- Every error of `waitBackoff` is the sentinel joined with the context error that won
the select. -/
theorem waitBackoff_eq_some {w : World σ} {d : Duration} {s s' : σ} {waitErr : Error P}
    (h : waitBackoff w d s = (some waitErr, s')) : ∃ e, (w.select d s).1 = some e ∧
      waitErr = waitError (w.alloc (w.select d s).2).1 e ∧
      s' = (w.alloc (w.select d s).2).2 := by
  cases hselect : (w.select d s).1 with
  | none =>
      rw [waitBackoff_of_timer hselect] at h
      cases h
  | some e =>
      rw [waitBackoff_of_done hselect] at h
      cases h
      exact ⟨e, rfl, rfl, rfl⟩

end WaitBackoff

section Refinement

variable {ι σ α P : Type} (w : World σ) (layer : ι) (next : UnaryFunc ι σ α P)

def retryPolicy : Policy (Result α P) Duration where
  retries := maxRetries - 1
  retry o := isRetryable o.2
  backoff k := initialBackoff <<< k

/-- The shift of the backoff does not overflow before any attempt of the
policy. -/
theorem initialBackoff_shiftLeft :
    ∀ k < maxRetries - 1, (initialBackoff <<< k).toInt = 1000000000 * 2 ^ k := by
  decide

/-- What `retryUnary` returns once its loop has ended. -/
def finish : Exit (Result α P) (Error P) → Traced (RetryEvent ι σ α P) σ (Result α P)
  | .done (res, none) => return (res, none)
  | .done (_, some err) => return (none, some err)
  | .interrupted (_, err) waitErr => do
      let address ← Traced.lift w.alloc
      return (none, errorsJoin address [err, some waitErr])

/-- From attempt `k` on, the loop is the loop of the policy, and it returns from
its body. -/
theorem retryLoop_eq (last : Option (Error P)) (k n : ℕ) (hk : k + n + 1 = maxRetries) :
    retryLoop w layer next last (List.range' k (n + 1)) =
      (retryPolicy.loop layer next (waitBackoff w) k n >>= fun exit =>
        Flow.ret <$> finish w exit) := by
  induction n generalizing k last with
  | zero =>
      have hlast : (k == maxRetries - 1) = true := by
        rw [beq_iff_eq]
        omega
      simp only [List.range'_succ, retryLoop, Policy.loop, bind_assoc, pure_bind]
      refine bind_congr fun r => ?_
      obtain ⟨res, _ | err⟩ := r
      · simp [finish]
      · simp [finish, hlast]
  | succ n ih =>
      have hmore : (k == maxRetries - 1) = false := by
        rw [beq_eq_false_iff_ne]
        omega
      rw [List.range'_succ]
      simp only [retryLoop, Policy.loop, bind_assoc]
      refine bind_congr fun r => ?_
      obtain ⟨res, _ | err⟩ := r
      · simp [retryPolicy, isRetryable, finish]
      · cases hretry : isRetryable (some err) with
        | false => simp [retryPolicy, hretry, finish]
        | true =>
            simp only [hmore, hretry, retryPolicy, Bool.not_true, Bool.or_false,
              Bool.false_eq_true, if_false, if_true, bind_assoc]
            refine bind_congr fun x => ?_
            cases x with
            | some waitErr => simp [finish]
            | none => exact ih (some err) (k + 1) (by omega)

/-- `retryUnary` runs its policy and returns from inside its loop. -/
theorem retryUnary_eq :
    retryUnary w layer next =
      (retryPolicy.run layer next (waitBackoff w) >>= finish w) := by
  have hloop := retryLoop_eq w layer next none 0 (maxRetries - 1) rfl
  unfold retryUnary
  rw [List.range_eq_range', show maxRetries = maxRetries - 1 + 1 from rfl, hloop]
  simp [Policy.run, retryPolicy]

theorem finish_events (exit : Exit (Result α P) (Error P)) (s : σ) :
    ((finish (ι := ι) w exit).exec s).events = [] := by
  rcases exit with ⟨res, _ | err⟩ | ⟨⟨res, err⟩, waitErr⟩ <;> simp [finish]

theorem retryUnary_events (s : σ) :
    ((retryUnary w layer next).exec s).events =
      ((retryPolicy.run layer next (waitBackoff w)).exec s).events := by
  rw [retryUnary_eq]
  simp [finish_events]

end Refinement

end Go

end ConnectExamples
