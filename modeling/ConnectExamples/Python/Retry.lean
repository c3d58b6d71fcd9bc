import ConnectExamples.Connect.Code
import ConnectExamples.Number.Binary64
import ConnectExamples.Retry.Trace

/-!
# The retry loop of the Python client

`interceptUnarySync` runs `call_next` up to `_MAX_RETRIES` times; a failed
attempt raises. Only an `Exception` is caught, a `ConnectError` is judged by its
code, and any other exception by its class. The argument of `time.sleep` is the
binary64 product of a float and an int. `interceptUnarySync_eq` identifies the
loop with the policy `retryPolicy`, so its tail is never reached.
-/

namespace ConnectExamples

namespace Python

open Retry Tracing

/-- The classes of exceptions, other than `ConnectError`, that the client tells
apart: `TimeoutError` and `ConnectionError` are `OSError`s, and `baseException`
is a `BaseException` that is no `Exception`. -/
inductive ExceptionClass where
  | osError
  | timeoutError
  | connectionError
  | exception
  | baseException
  deriving DecidableEq, Repr

inductive PyException (P : Type) where
  | connectError (code : Code) (payload : P)
  | other (cls : ExceptionClass) (payload : P)
  | overflowError
  | runtimeError (msg : String)
  deriving DecidableEq

/-- Whether `except Exception` catches it. -/
def PyException.isException {P : Type} : PyException P → Bool
  | .other .baseException _ => false
  | _ => true

/-- `isinstance(err, (OSError, TimeoutError, ConnectionError))`. -/
def PyException.isTransport {P : Type} : PyException P → Bool
  | .other .osError _ | .other .timeoutError _ | .other .connectionError _ => true
  | _ => false

def isRetryable {P : Type} (err : PyException P) : Bool :=
  match err with
  | .connectError code _ => code == .unavailable || code == .resourceExhausted
  | err => err.isTransport

def maxRetries : ℕ := 5

def initialBackoffS : ℚ := 1

/-- `_INITIAL_BACKOFF_S * (2**attempt)`: the int is converted to a float, and the
product is rounded; `none` where the result is out of range. -/
@[irreducible] def backoff (attempt : ℕ) : Option ℚ :=
  (Binary64.round ((2 ^ attempt : ℕ) : ℚ)).bind (Binary64.mul initialBackoffS)

section Source

variable {ι σ α P : Type}

/-- The events of the loop; a sleep is never interrupted. -/
abbrev RetryEvent (ι σ α P : Type) := Event ι σ (Except (PyException P) α) ℚ Empty

def sleep (_ : ℚ) (s : σ) : Option Empty × σ := (none, s)

/-- The loop of `intercept_unary_sync`, over the values of `attempt` that are
left. -/
def retryLoop (i : ι) (callNext : Traced (RetryEvent ι σ α P) σ (Except (PyException P) α)) :
    Option (PyException P) → List ℕ →
      Traced (RetryEvent ι σ α P) σ
        (Flow (Except (PyException P) α) (Option (PyException P)))
  | lastError, [] => return .fell lastError
  | _, attempt :: rest => do
      match ← observeCall i attempt callNext with
      | .ok res => return .ret (.ok res)
      | .error err =>
          if !err.isException then
            -- not caught by the except clause
            return .ret (.error err)
          else if !isRetryable err || attempt == maxRetries - 1 then
            return .ret (.error err)
          else
            match backoff attempt with
            | none => return .ret (.error .overflowError)
            | some d =>
                let _ ← observeWait i attempt d (sleep d)
                retryLoop i callNext (some err) rest

def interceptUnarySync (i : ι)
    (callNext : Traced (RetryEvent ι σ α P) σ (Except (PyException P) α)) :
    Traced (RetryEvent ι σ α P) σ (Except (PyException P) α) := do
  match ← retryLoop i callNext none (List.range maxRetries) with
  | .ret result => return result
  | .fell none =>
      return .error (.runtimeError "retry loop exited without a result or error")
  | .fell (some lastError) => return .error lastError

end Source

section Refinement

variable {ι σ α P : Type}

/-- The backoff after attempt `k` is exactly `2 ^ k` seconds. -/
theorem backoff_eq (k : ℕ) (hk : k < maxRetries - 1) : backoff k = some (2 ^ k) := by
  have hpow : 2 ^ k < 2 ^ 53 := Nat.pow_lt_pow_right (by decide) (by
    change k < 4 at hk
    omega)
  have hmul : 1 * 2 ^ k < 2 ^ 53 := by omega
  have hproduct := Binary64.mul_natCast hmul
  unfold backoff initialBackoffS
  rw [Binary64.round_natCast hpow, Option.bind_some]
  simpa using hproduct

def retryPolicy : Policy (Except (PyException P) α) ℚ where
  retries := maxRetries - 1
  retry
    | .ok _ => false
    | .error err => err.isException && isRetryable err
  backoff k := (backoff k).getD initialBackoffS

def finish : Exit (Except (PyException P) α) Empty → Except (PyException P) α
  | .done o => o
  | .interrupted _ x => x.elim

theorem retryLoop_eq (i : ι)
    (callNext : Traced (RetryEvent ι σ α P) σ (Except (PyException P) α))
    (last : Option (PyException P)) (k n : ℕ) (hk : k + n + 1 = maxRetries) :
    retryLoop i callNext last (List.range' k (n + 1)) =
      (fun exit => Flow.ret (finish exit)) <$>
        retryPolicy.loop i callNext sleep k n := by
  induction n generalizing k last with
  | zero =>
      have hlast : (k == maxRetries - 1) = true := by
        rw [beq_iff_eq]
        omega
      simp only [List.range'_succ, retryLoop, Policy.loop, map_bind, map_pure]
      refine bind_congr fun o => ?_
      cases o with
      | ok res => rfl
      | error err => simp [hlast, finish]
  | succ n ih =>
      have hmore : (k == maxRetries - 1) = false := by
        rw [beq_eq_false_iff_ne]
        omega
      have hd := backoff_eq k (by omega)
      rw [List.range'_succ]
      simp only [retryLoop, Policy.loop, map_bind]
      refine bind_congr fun o => ?_
      cases o with
      | ok res => simp [retryPolicy, finish]
      | error err =>
          cases hexc : err.isException with
          | false => simp [retryPolicy, hexc, finish]
          | true =>
              cases hretry : isRetryable err with
              | false => simp [retryPolicy, hexc, hretry, finish]
              | true =>
                  simp only [hexc, hretry, hmore, hd, retryPolicy, Option.getD_some,
                    Bool.not_true, Bool.and_self, Bool.or_false, Bool.false_eq_true,
                    if_false, if_true, map_bind]
                  refine bind_congr fun x => ?_
                  cases x with
                  | some x => exact x.elim
                  | none => exact ih (some err) (k + 1) (by omega)

theorem interceptUnarySync_eq (i : ι)
    (callNext : Traced (RetryEvent ι σ α P) σ (Except (PyException P) α)) :
    interceptUnarySync i callNext = finish <$> retryPolicy.run i callNext sleep := by
  have hloop := retryLoop_eq i callNext none 0 (maxRetries - 1) rfl
  unfold interceptUnarySync
  rw [List.range_eq_range', show maxRetries = maxRetries - 1 + 1 from rfl, hloop]
  simp [Policy.run, retryPolicy]

end Refinement

end Python

/-- An outcome as Python code sees it. -/
def Outcome.toPython {α P : Type} : Outcome α P → Except (Python.PyException P) α
  | .ok value => .ok value
  | .error (code, payload) => .error (.connectError code payload)

end ConnectExamples
