import ConnectExamples.Retry.Trace
import ConnectExamples.Rust.Connectrpc
import Mathlib.Data.Rat.Defs

/-!
# The retry loop of the Rust client

`withRetry` runs `f` up to `maxRetries` times. Its arithmetic is checked:
`u32::pow` and the product of a `Duration` and a `u32` panic on overflow, and so
does the `expect` in the tail of the function. `withRetry_eq` identifies the
loop with the policy `retryPolicy`, so none of the three is reached.
-/

namespace ConnectExamples

namespace Rust

open Retry Tracing

@[ext] structure Duration where
  secs : ℕ
  nanos : ℕ
  secs_lt : secs < 2 ^ 64
  nanos_lt : nanos < 1000000000
  deriving DecidableEq

def Duration.fromSecs (secs : ℕ) (h : secs < 2 ^ 64) : Duration :=
  ⟨secs, 0, h, by decide⟩

def Duration.seconds (d : Duration) : ℚ := d.secs + d.nanos / 1000000000

/-- `Duration * u32`, `none` where it panics on overflow. -/
def Duration.mul (d : Duration) (rhs : ℕ) : Option Duration :=
  let totalNanos := d.nanos * rhs
  let secs := d.secs * rhs + totalNanos / 1000000000
  if h : secs < 2 ^ 64 then
    some ⟨secs, totalNanos % 1000000000, h, Nat.mod_lt _ (by decide)⟩
  else none

/-- `u32::pow`, `none` where it panics on overflow. -/
def u32Pow (base exp : ℕ) : Option ℕ :=
  if base ^ exp < 2 ^ 32 then some (base ^ exp) else none

def maxRetries : ℕ := 5

def initialBackoff : Duration := .fromSecs 1 (by decide)

/-- `INITIAL_BACKOFF * 2u32.pow(attempt)`. -/
@[irreducible] def backoff (attempt : ℕ) : Option Duration :=
  (u32Pow 2 attempt).bind initialBackoff.mul

def isRetryable {P : Type} (err : ConnectError P) : Bool :=
  match err.code with
  | .unavailable | .resourceExhausted => true
  | _ => false

/-- How a call ends: it returns, or it panics. -/
inductive Completion (ρ : Type) where
  | returned (result : ρ)
  | panicked (message : String)
  deriving DecidableEq

section Source

variable {ι σ α P : Type}

/-- The events of the loop; a sleep is never interrupted. -/
abbrev RetryEvent (ι σ α P : Type) :=
  Event ι σ (Except (ConnectError P) α) Duration Empty

def sleep (_ : Duration) (s : σ) : Option Empty × σ := (none, s)

/-- The loop of `with_retry`, over the values of `attempt` that are left. -/
def retryLoop (i : ι) (f : Traced (RetryEvent ι σ α P) σ (Except (ConnectError P) α)) :
    Option (ConnectError P) → List ℕ →
      Traced (RetryEvent ι σ α P) σ
        (Flow (Completion (Except (ConnectError P) α)) (Option (ConnectError P)))
  | last, [] => return .fell last
  | _, attempt :: rest => do
      match ← observeCall i attempt f with
      | .ok value => return .ret (.returned (.ok value))
      | .error err =>
          if !isRetryable err || attempt + 1 == maxRetries then
            return .ret (.returned (.error err))
          else
            match backoff attempt with
            | none => return .ret (.panicked "overflow")
            | some d =>
                let _ ← observeWait i attempt d (sleep d)
                retryLoop i f (some err) rest

def withRetry (i : ι) (f : Traced (RetryEvent ι σ α P) σ (Except (ConnectError P) α)) :
    Traced (RetryEvent ι σ α P) σ (Completion (Except (ConnectError P) α)) := do
  match ← retryLoop i f none (List.range maxRetries) with
  | .ret result => return result
  | .fell (some err) => return .returned (.error err)
  | .fell none => return .panicked "retry loop exited without a result or error"

end Source

section Refinement

variable {ι σ α P : Type}

/-- No backoff of the loop overflows, and the one after attempt `k` takes
`2 ^ k` seconds. -/
theorem backoff_eq : ∀ k < maxRetries - 1,
    ∃ d, backoff k = some d ∧ d.secs = 2 ^ k ∧ d.nanos = 0 := by
  intro k hk
  change k < 4 at hk
  have hpow : 2 ^ k < 2 ^ 32 := Nat.pow_lt_pow_right (by decide) (by omega)
  have hsecs : 2 ^ k < 2 ^ 64 := hpow.trans (by decide)
  refine ⟨.fromSecs (2 ^ k) hsecs, ?_, rfl, rfl⟩
  unfold backoff u32Pow
  rw [if_pos hpow, Option.bind_some]
  simp only [Duration.mul, initialBackoff, Duration.fromSecs, Nat.zero_mul, Nat.zero_div,
    Nat.zero_mod, Nat.add_zero, Nat.one_mul, dif_pos hsecs]

def retryPolicy : Policy (Except (ConnectError P) α) Duration where
  retries := maxRetries - 1
  retry
    | .ok _ => false
    | .error err => isRetryable err
  backoff k := (backoff k).getD initialBackoff

def finish : Exit (Except (ConnectError P) α) Empty →
    Completion (Except (ConnectError P) α)
  | .done o => .returned o
  | .interrupted _ x => x.elim

theorem retryLoop_eq (i : ι)
    (f : Traced (RetryEvent ι σ α P) σ (Except (ConnectError P) α))
    (last : Option (ConnectError P)) (k n : ℕ) (hk : k + n + 1 = maxRetries) :
    retryLoop i f last (List.range' k (n + 1)) =
      (fun exit => Flow.ret (finish exit)) <$>
        retryPolicy.loop i f sleep k n := by
  induction n generalizing k last with
  | zero =>
      have hlast : (k + 1 == maxRetries) = true := by
        rw [beq_iff_eq]
        omega
      simp only [List.range'_succ, retryLoop, Policy.loop, map_bind, map_pure]
      refine bind_congr fun o => ?_
      cases o with
      | ok value => rfl
      | error err => simp [hlast, finish]
  | succ n ih =>
      have hmore : (k + 1 == maxRetries) = false := by
        rw [beq_eq_false_iff_ne]
        omega
      obtain ⟨d, hd, -⟩ := backoff_eq k (by omega)
      rw [List.range'_succ]
      simp only [retryLoop, Policy.loop, map_bind]
      refine bind_congr fun o => ?_
      cases o with
      | ok value => simp [retryPolicy, finish]
      | error err =>
          cases hretry : isRetryable err with
          | false => simp [retryPolicy, hretry, finish]
          | true =>
              simp only [hretry, hmore, hd, retryPolicy, Option.getD_some, Bool.not_true,
                Bool.or_false, Bool.false_eq_true, if_false, if_true, map_bind]
              refine bind_congr fun x => ?_
              cases x with
              | some x => exact x.elim
              | none => exact ih (some err) (k + 1) (by omega)

theorem withRetry_eq (i : ι)
    (f : Traced (RetryEvent ι σ α P) σ (Except (ConnectError P) α)) :
    withRetry i f = finish <$> retryPolicy.run i f sleep := by
  have hloop := retryLoop_eq i f none 0 (maxRetries - 1) rfl
  unfold withRetry
  rw [List.range_eq_range', show maxRetries = maxRetries - 1 + 1 from rfl, hloop]
  simp [Policy.run, retryPolicy]

end Refinement

end Rust

end ConnectExamples
