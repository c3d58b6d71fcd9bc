import ConnectExamples.Go.Definitive
import ConnectExamples.Python.Retry
import ConnectExamples.Rust.Retry
import Mathlib.Algebra.Order.Ring.Rat
import Mathlib.Tactic.NormNum

/-!
# One retry policy for three clients

An attempt ends with a value or with a Connect error that wraps nothing. The
policy of the repository is stated once for such outcomes: up to five attempts,
another one after `Unavailable` and `ResourceExhausted` only, and a pause of
`2 ^ k` seconds after attempt `k`, where attempts are counted from zero. Each
client simulates it: a run of the client is a run of the policy with outcomes
and durations written in the client's own types.
-/

namespace ConnectExamples

namespace Client

open Retry Tracing

variable {ι σ α P : Type}

/-- A Connect error with one of the two codes that ask for another attempt. -/
def transient : Outcome α P → Bool
  | .ok _ => false
  | .error (code, _) => code == .unavailable || code == .resourceExhausted

/-- The retry policy of the repository, with pauses in seconds. -/
def retryPolicy : Policy (Outcome α P) ℚ where
  retries := 4
  retry := transient
  backoff k := 2 ^ k

def sleep (_ : ℚ) (s : σ) : Option Empty × σ := (none, s)

def run (i : ι) (env : σ → Outcome α P × σ) (s : σ) :
    Run (Event ι σ (Outcome α P) ℚ Empty) (Exit (Outcome α P) Empty) σ :=
  (retryPolicy.run i (Traced.lift env) sleep).exec s

/-- The same environment for a client. -/
def through {ω : Type} (f : Outcome α P → ω) (env : σ → Outcome α P × σ) (s : σ) : ω × σ :=
  (f (env s).1, (env s).2)

section Predicates

theorem retry_toRust (o : Outcome α P) :
    Rust.retryPolicy.retry o.toRust = transient o := by
  rcases o with ⟨code, payload⟩ | value
  · cases code <;> rfl
  · rfl

theorem retry_toPython (o : Outcome α P) :
    Python.retryPolicy.retry o.toPython = transient o := by
  rcases o with ⟨code, payload⟩ | value
  · rfl
  · rfl

theorem codeRetryable_number (code : Code) :
    Go.codeRetryable code.number = (code == .unavailable || code == .resourceExhausted) := by
  rw [Bool.eq_iff_iff]
  change (code.number == Code.unavailable.number ||
    code.number == Code.resourceExhausted.number) = true ↔ _
  simp

theorem retry_toGo (address : P → ℕ) (o : Outcome α P) :
    Go.retryPolicy.retry (o.toGo address) = transient o := by
  rcases o with ⟨code, payload⟩ | value
  · -- the error is a single node, so no search but that for the code succeeds
    calc Go.isRetryable (Outcome.toGo (α := α) address (.error (code, payload))).2
        = Go.codeRetryable code.number := by
          rw [Outcome.toGo, Go.isRetryable_eq]
          exact (Bool.or_false _).trans (Bool.or_false _)
      _ = transient (.error (code, payload) : Outcome α P) := codeRetryable_number code
  · rfl

end Predicates

section Durations

theorem seconds_rust : ∀ k < 4,
    Rust.Duration.seconds ((Rust.retryPolicy (α := α) (P := P)).backoff k) = 2 ^ k := by
  intro k hk
  obtain ⟨d, hd, hsecs, hnanos⟩ := Rust.backoff_eq k hk
  simp [Rust.retryPolicy, hd, Rust.Duration.seconds, hsecs, hnanos]

theorem seconds_go : ∀ k < 4,
    Go.Duration.seconds ((Go.retryPolicy (α := α) (P := P)).backoff k) = 2 ^ k := by
  intro k hk
  simp only [Go.retryPolicy, Go.Duration.seconds, Go.initialBackoff_shiftLeft k hk]
  push_cast
  exact mul_div_cancel_left₀ _ (by norm_num)

theorem seconds_python : ∀ k < 4,
    (Python.retryPolicy (α := α) (P := P)).backoff k = 2 ^ k := by
  intro k hk
  simp only [Python.retryPolicy, Python.backoff_eq k hk, Option.getD_some]

end Durations

section Run

variable (i : ι) (env : σ → Outcome α P × σ) (s : σ)

/-- A run of the policy ends with the outcome of its last attempt. -/
theorem run_last : ∃ pre m last,
    m < 5 ∧ (run i env s).result = .done last ∧
      (run i env s).events = pre ++ [.returned i m (run i env s).state last] ∧
      (run i env s).events.filterMap Event.attempt? = List.range (m + 1) := by
  obtain ⟨last, hlast⟩ := Policy.loop_exit_done retryPolicy i (Traced.lift env) sleep
    (fun _ _ => rfl) 0 4 s
  obtain ⟨pre, m, hm, hevents, hattempts⟩ := Policy.loop_last retryPolicy i env sleep 0 4 s
  refine ⟨pre, m, last, Nat.lt_succ_of_le hm, hlast, ?_, ?_⟩
  · rw [Policy.lastEvent, hlast, Nat.zero_add] at hevents
    exact hevents
  · rw [List.range_eq_range']
    exact hattempts

end Run

section Simulation

variable (i : ι) (env : σ → Outcome α P × σ) (s : σ) {last : Outcome α P}

/-- A client whose policy, outcomes and pauses correspond to those of the
repository simulates a run of the policy. -/
theorem run_simulated {ω δ χ : Type} (p : Policy ω δ) (f : Outcome α P → ω) (g : δ → ℚ)
    (h : Empty → χ) (pause : δ → σ → Option χ × σ) (hretries : p.retries = 4)
    (hretry : ∀ o, p.retry (f o) = transient o) (hbackoff : ∀ k < 4, g (p.backoff k) = 2 ^ k)
    (hpause : ∀ d s, pause d s = (none, s)) (hlast : (run i env s).result = .done last) :
    let r := (p.run i (Traced.lift (through f env)) pause).exec s
    r.result = .done (f last) ∧
      r.events.map (Event.map id g id) = (run i env s).events.map (Event.map f id h) ∧
      r.state = (run i env s).state := by
  intro r
  obtain ⟨hresult, hevents, hstate⟩ := Policy.loop_map retryPolicy p f g h env sleep pause i
    hretry hpause 0 4 (fun k _ hk => hbackoff k (by omega)) s
  simp only [r, Policy.run, hretries]
  refine ⟨?_, hevents, hstate⟩
  change _ = (run i env s).result.map f h at hresult
  rw [hlast] at hresult
  exact hresult

theorem finish_toGo (address : P → ℕ) (w : Go.World σ) (o : Outcome α P) :
    Go.finish (ι := ι) w (.done (o.toGo address)) = pure (o.toGo address) := by
  rcases o with ⟨code, payload⟩ | value <;> rfl

end Simulation

end Client

end ConnectExamples
