import ConnectExamples.Retry.Path
import ConnectExamples.Tracing.Traced

/-!
# Bounded retry with interruptible pauses

A `Policy` says how often an attempt may be repeated, which outcomes ask for
another attempt, and how long to pause before it. `Policy.run` is the loop that
a retry policy stands for, over any attempt and any pause; a pause may be
interrupted, and then the run ends there. The event type records every attempt
and every pause with the state in which it starts and ends, so what a loop does
between two events is visible in its trace.

For attempts that log nothing of their own the trace is the maximal run of the
partial function `follow`, which is the transition system of the loop: every
fact about a trace is then read off one step (`Policy.run_path`).
-/

namespace Retry

open Tracing

/-- The observable moments of a retry loop `i`. The counter is the number of
attempts that ended before. -/
inductive Event (ι σ ω δ χ : Type) where
  | call (i : ι) (k : ℕ) (s : σ)
  | returned (i : ι) (k : ℕ) (s : σ) (o : ω)
  | wait (i : ι) (k : ℕ) (s : σ) (d : δ)
  | woke (i : ι) (k : ℕ) (s : σ) (x : Option χ)
  deriving DecidableEq

namespace Event

variable {ι σ ω ω' δ δ' χ χ' : Type}

def state : Event ι σ ω δ χ → σ
  | call _ _ s | returned _ _ s _ | wait _ _ s _ | woke _ _ s _ => s

def isCall : Event ι σ ω δ χ → Bool
  | call .. => true
  | _ => false

def isWait : Event ι σ ω δ χ → Bool
  | wait .. => true
  | _ => false

/-- The number of the attempt that starts here. -/
def attempt? : Event ι σ ω δ χ → Option ℕ
  | call _ k _ => some k
  | _ => none

def isInterrupt : Event ι σ ω δ χ → Bool
  | woke _ _ _ (some _) => true
  | _ => false

/-- If a pause starts here, its attempt and its duration are as `good` says. -/
def Paused (good : ℕ → δ → Prop) : Event ι σ ω δ χ → Prop
  | wait _ k _ d => good k d
  | _ => True

/-- The same event with outcomes, durations and interrupts renamed. -/
def map (f : ω → ω') (g : δ → δ') (h : χ → χ') :
    Event ι σ ω δ χ → Event ι σ ω' δ' χ'
  | call i k s => call i k s
  | returned i k s o => returned i k s (f o)
  | wait i k s d => wait i k s (g d)
  | woke i k s x => woke i k s (x.map h)

end Event

/-- A retry policy: how many attempts may follow the first, which outcomes ask
for one, and how long to pause after attempt `k`. -/
structure Policy (ω δ : Type) where
  retries : ℕ
  retry : ω → Bool
  backoff : ℕ → δ

/-- How a retry loop ends: with an outcome, or by an interrupted pause. -/
inductive Exit (ω χ : Type) where
  | done (o : ω)
  | interrupted (o : ω) (x : χ)
  deriving DecidableEq

section Observe

variable {ι σ ω δ χ : Type}

/-- Run an attempt and log its start and its end. -/
def observeCall (i : ι) (k : ℕ) (call : Traced (Event ι σ ω δ χ) σ ω) :
    Traced (Event ι σ ω δ χ) σ ω := do
  Traced.emit (.call i k ·)
  let o ← call
  Traced.emit (.returned i k · o)
  return o

/-- Run a pause and log its start and its end. -/
def observeWait (i : ι) (k : ℕ) (d : δ) (pause : σ → Option χ × σ) :
    Traced (Event ι σ ω δ χ) σ (Option χ) := do
  Traced.emit (.wait i k · d)
  let x ← Traced.lift pause
  Traced.emit (.woke i k · x)
  return x

@[simp] theorem exec_observeCall (i : ι) (k : ℕ)
    (call : Traced (Event ι σ ω δ χ) σ ω) (s : σ) :
    (observeCall i k call).exec s =
      ⟨(call.exec s).result,
        .call i k s :: ((call.exec s).events ++
          [.returned i k (call.exec s).state (call.exec s).result]),
        (call.exec s).state⟩ := by
  simp [observeCall]

@[simp] theorem exec_observeWait (i : ι) (k : ℕ) (d : δ)
    (pause : σ → Option χ × σ) (s : σ) :
    (observeWait i k d pause : Traced (Event ι σ ω δ χ) σ (Option χ)).exec s =
      ⟨(pause s).1, [.wait i k s d, .woke i k (pause s).2 (pause s).1],
        (pause s).2⟩ := by
  simp [observeWait]

end Observe

namespace Policy

variable {ι σ ω δ χ : Type}

/-- The loop from attempt `k` on, with `n` more attempts allowed after it. -/
def loop (p : Policy ω δ) (i : ι) (call : Traced (Event ι σ ω δ χ) σ ω)
    (pause : δ → σ → Option χ × σ) :
    ℕ → ℕ → Traced (Event ι σ ω δ χ) σ (Exit ω χ)
  | k, 0 => do
      let o ← observeCall i k call
      return .done o
  | k, n + 1 => do
      let o ← observeCall i k call
      if p.retry o then
        match ← observeWait i k (p.backoff k) (pause (p.backoff k)) with
        | some x => return .interrupted o x
        | none => loop p i call pause (k + 1) n
      else
        return .done o

def run (p : Policy ω δ) (i : ι) (call : Traced (Event ι σ ω δ χ) σ ω)
    (pause : δ → σ → Option χ × σ) : Traced (Event ι σ ω δ χ) σ (Exit ω χ) :=
  loop p i call pause 0 p.retries

section Loop

variable (p : Policy ω δ) (i : ι) (call : Traced (Event ι σ ω δ χ) σ ω)
  (pause : δ → σ → Option χ × σ)

/-- One round that ends the loop: no attempt is left, or the outcome does not
ask for one. -/
theorem loop_done (k n : ℕ) (s : σ)
    (h : n = 0 ∨ p.retry (call.exec s).result = false) :
    (loop p i call pause k n).exec s =
      ⟨.done (call.exec s).result, ((observeCall i k call).exec s).events,
        (call.exec s).state⟩ := by
  cases n with
  | zero => simp [loop]
  | succ n =>
      have hstop : p.retry (call.exec s).result = false := by simpa using h
      simp [loop, hstop]

theorem loop_interrupted (k n : ℕ) (s : σ) (x : χ)
    (hretry : p.retry (call.exec s).result = true)
    (hpause : (pause (p.backoff k) (call.exec s).state).1 = some x) :
    (loop p i call pause k (n + 1)).exec s =
      ⟨.interrupted (call.exec s).result x,
        ((observeCall i k call).exec s).events ++
          [.wait i k (call.exec s).state (p.backoff k),
            .woke i k (pause (p.backoff k) (call.exec s).state).2 (some x)],
        (pause (p.backoff k) (call.exec s).state).2⟩ := by
  simp [loop, hretry, hpause]

theorem loop_again (k n : ℕ) (s : σ)
    (hretry : p.retry (call.exec s).result = true)
    (hpause : (pause (p.backoff k) (call.exec s).state).1 = none) :
    (loop p i call pause k (n + 1)).exec s =
      ((loop p i call pause (k + 1) n).exec
          (pause (p.backoff k) (call.exec s).state).2).after
        (((observeCall i k call).exec s).events ++
          [.wait i k (call.exec s).state (p.backoff k),
            .woke i k (pause (p.backoff k) (call.exec s).state).2 none]) := by
  simp [loop, hretry, hpause, Run.after]

/-- What holds of a loop from attempt `k` on, with `n` more attempts allowed, when it
starts in `s`: a round that ends the loop gives it, one whose pause is interrupted
gives it, and a round before a loop keeps it. -/
theorem loop_rule {motive : ℕ → ℕ → σ → Run (Event ι σ ω δ χ) (Exit ω χ) σ → Prop}
    (hdone : ∀ k n s, n = 0 ∨ p.retry (call.exec s).result = false →
      motive k n s ⟨.done (call.exec s).result, ((observeCall i k call).exec s).events,
        (call.exec s).state⟩)
    (hinterrupted : ∀ k n s x, p.retry (call.exec s).result = true →
      (pause (p.backoff k) (call.exec s).state).1 = some x →
        motive k (n + 1) s ⟨.interrupted (call.exec s).result x,
          ((observeCall i k call).exec s).events ++
            [.wait i k (call.exec s).state (p.backoff k),
              .woke i k (pause (p.backoff k) (call.exec s).state).2 (some x)],
          (pause (p.backoff k) (call.exec s).state).2⟩)
    (hagain : ∀ k n s r, p.retry (call.exec s).result = true →
      (pause (p.backoff k) (call.exec s).state).1 = none →
        motive (k + 1) n (pause (p.backoff k) (call.exec s).state).2 r →
          motive k (n + 1) s (r.after (((observeCall i k call).exec s).events ++
            [.wait i k (call.exec s).state (p.backoff k),
              .woke i k (pause (p.backoff k) (call.exec s).state).2 none])))
    (k n : ℕ) (s : σ) : motive k n s ((loop p i call pause k n).exec s) := by
  induction n generalizing k s with
  | zero =>
      rw [loop_done p i call pause k 0 s (.inl rfl)]
      exact hdone k 0 s (.inl rfl)
  | succ n ih =>
      cases hretry : p.retry (call.exec s).result with
      | false =>
          rw [loop_done p i call pause k (n + 1) s (.inr hretry)]
          exact hdone k (n + 1) s (.inr hretry)
      | true =>
          cases hpause : (pause (p.backoff k) (call.exec s).state).1 with
          | some x =>
              rw [loop_interrupted p i call pause k n s x hretry hpause]
              exact hinterrupted k n s x hretry hpause
          | none =>
              rw [loop_again p i call pause k n s hretry hpause]
              exact hagain k n s _ hretry hpause (ih (k + 1) _)

end Loop

section Follow

variable (p : Policy ω δ) (i : ι) (env : σ → ω × σ) (pause : δ → σ → Option χ × σ)

/-- What follows an event of the loop; an outcome that asks for no further
attempt, the last attempt and an interrupted pause are followed by nothing. -/
def follow : Event ι σ ω δ χ → Option (Event ι σ ω δ χ)
  | .call i k s => some (.returned i k (env s).2 (env s).1)
  | .returned i k s o =>
      if p.retry o && decide (k < p.retries) then
        some (.wait i k s (p.backoff k))
      else none
  | .wait i k s d => some (.woke i k (pause d s).2 (pause d s).1)
  | .woke i k s none => some (.call i (k + 1) s)
  | .woke _ _ _ (some _) => none

/-- Every step of the loop is one of four. -/
theorem follow_cases {a b : Event ι σ ω δ χ} (h : follow p env pause a = some b) :
    (∃ j k s, a = .call j k s ∧ b = .returned j k (env s).2 (env s).1) ∨
      (∃ j k s o, a = .returned j k s o ∧ p.retry o = true ∧ k < p.retries ∧
        b = .wait j k s (p.backoff k)) ∨
      (∃ j k s d, a = .wait j k s d ∧ b = .woke j k (pause d s).2 (pause d s).1) ∨
      ∃ j k s, a = .woke j k s none ∧ b = .call j (k + 1) s := by
  cases a with
  | call j k s => exact .inl ⟨j, k, s, rfl, (Option.some.inj h).symm⟩
  | returned j k s o =>
      simp only [follow] at h
      split at h
      · rename_i hcond
        rw [Bool.and_eq_true, decide_eq_true_eq] at hcond
        exact .inr (.inl ⟨j, k, s, o, rfl, hcond.1, hcond.2, (Option.some.inj h).symm⟩)
      · cases h
  | wait j k s d => exact .inr (.inr (.inl ⟨j, k, s, d, rfl, (Option.some.inj h).symm⟩))
  | woke j k s x =>
      cases x with
      | none => exact .inr (.inr (.inr ⟨j, k, s, rfl, (Option.some.inj h).symm⟩))
      | some x => cases h

/-- From attempt `k` on, the trace is the run of `follow` from that attempt. -/
theorem loop_path (k n : ℕ) (hk : k + n = p.retries) (s : σ) :
    Path (follow p env pause) (.call i k s)
      ((loop p i (Traced.lift env) pause k n).exec s).events := by
  induction n generalizing k s with
  | zero =>
      rw [loop_done p i _ pause k 0 s (.inl rfl)]
      simp only [exec_observeCall, Traced.exec_lift, List.nil_append]
      refine .step rfl (.stop ?_)
      have hlast : ¬ k < p.retries := by omega
      simp [follow, hlast]
  | succ n ih =>
      have hmore : k < p.retries := by omega
      cases hretry : p.retry (env s).1 with
      | false =>
          rw [loop_done p i _ pause k (n + 1) s (.inr hretry)]
          simp only [exec_observeCall, Traced.exec_lift, List.nil_append]
          exact .step rfl (.stop (by simp [follow, hretry]))
      | true =>
          cases hpause : (pause (p.backoff k) (env s).2).1 with
          | some x =>
              rw [loop_interrupted p i _ pause k n s x hretry hpause]
              simp only [exec_observeCall, Traced.exec_lift, List.nil_append,
                List.cons_append]
              refine .step rfl (.step (b := .wait i k (env s).2 (p.backoff k)) ?_
                (.step ?_ (.stop rfl)))
              · simp [follow, hretry, hmore]
              · simp [follow, hpause]
          | none =>
              have tail := ih (k + 1) (by omega) (pause (p.backoff k) (env s).2).2
              rw [loop_again p i _ pause k n s hretry hpause]
              simp only [Run.after_events, exec_observeCall, Traced.exec_lift,
                List.nil_append, List.cons_append]
              refine .step rfl (.step (b := .wait i k (env s).2 (p.backoff k)) ?_
                (.step ?_ (.step ?_ tail)))
              · simp [follow, hretry, hmore]
              · simp [follow, hpause]
              · rfl

theorem run_path (s : σ) :
    Path (follow p env pause) (.call i 0 s)
      ((run p i (Traced.lift env) pause).exec s).events :=
  loop_path p i env pause 0 p.retries (by omega) s

end Follow

end Policy

end Retry
