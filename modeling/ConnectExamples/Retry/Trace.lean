import ConnectExamples.Retry.Policy

/-!
# What the trace of a retry loop says

Facts about every run of a policy whose attempts log nothing of their own, read
off the transition function `follow`: when an outcome is the last one, that an
interrupt ends the run, that a pause is followed by its end, and that the last
event carries the result. The simulation `loop_map` compares two policies along
a renaming of outcomes and durations, so that loops written over different
outcome types have the same trace.
-/

namespace Retry

open Tracing

namespace Policy

variable {ι σ ω δ χ : Type}

section Trace

variable (p : Policy ω δ) (i : ι) (env : σ → ω × σ) (pause : δ → σ → Option χ × σ)
  {s : σ} {pre post : List (Event ι σ ω δ χ)}

/-- Nothing follows an outcome exactly when it asks for no further attempt or
no attempt is left. -/
theorem returned_last_iff {j : ι} {k : ℕ} {s' : σ} {o : ω}
    (h : ((run p i (Traced.lift env) pause).exec s).events =
      pre ++ .returned j k s' o :: post) :
    post = [] ↔ p.retry o = false ∨ p.retries ≤ k := by
  have tail := (run_path p i env pause s).suffix h
  rw [tail.tail_nil_iff]
  cases hretry : p.retry o with
  | false => simp [follow, hretry]
  | true => simp [follow, hretry]

/-- An outcome that is not the last one is followed by a pause, of the length
that the policy prescribes. -/
theorem wait_of_returned {j : ι} {k : ℕ} {s' : σ} {o : ω}
    (h : ((run p i (Traced.lift env) pause).exec s).events =
      pre ++ .returned j k s' o :: post)
    (hretry : p.retry o = true) (hk : k < p.retries) :
    ∃ rest, post = .wait j k s' (p.backoff k) :: rest := by
  have tail := (run_path p i env pause s).suffix h
  obtain ⟨rest, hpost, -⟩ := tail.tail_of_next
    (b := .wait j k s' (p.backoff k)) (by simp [follow, hretry, hk])
  exact ⟨rest, hpost⟩

theorem woke_of_wait {j : ι} {k : ℕ} {s' : σ} {d : δ}
    (h : ((run p i (Traced.lift env) pause).exec s).events =
      pre ++ .wait j k s' d :: post) :
    ∃ rest, post = .woke j k (pause d s').2 (pause d s').1 :: rest := by
  have tail := (run_path p i env pause s).suffix h
  obtain ⟨rest, hpost, -⟩ := tail.tail_of_next rfl
  exact ⟨rest, hpost⟩

theorem nil_of_interrupt {j : ι} {k : ℕ} {s' : σ} {x : χ}
    (h : ((run p i (Traced.lift env) pause).exec s).events =
      pre ++ .woke j k s' (some x) :: post) : post = [] := by
  have tail := (run_path p i env pause s).suffix h
  exact tail.tail_nil_iff.mpr rfl

end Trace

/-- What one step of the loop respects holds of every event after another. -/
theorem rel_of_mem_tail (p : Policy ω δ) (i : ι) (env : σ → ω × σ)
    (pause : δ → σ → Option χ × σ) {R : Event ι σ ω δ χ → Event ι σ ω δ χ → Prop}
    (hrefl : ∀ a, R a a) (htrans : ∀ a b c, R a b → R b c → R a c)
    (hstep : ∀ a b, follow p env pause a = some b → R a b)
    {s : σ} {pre post : List (Event ι σ ω δ χ)} {a b : Event ι σ ω δ χ}
    (h : ((run p i (Traced.lift env) pause).exec s).events = pre ++ a :: post)
    (hb : b ∈ post) : R a b :=
  ((run_path p i env pause s).suffix h).rel_of_mem hrefl htrans hstep
    (List.mem_cons_of_mem a hb)

theorem wait_backoff (p : Policy ω δ) (i : ι) (env : σ → ω × σ)
    (pause : δ → σ → Option χ × σ) {s s' : σ} {j : ι} {k : ℕ} {d : δ}
    (h : .wait j k s' d ∈ ((run p i (Traced.lift env) pause).exec s).events) :
    k < p.retries ∧ d = p.backoff k := by
  let good := Event.Paused (ι := ι) (σ := σ) (ω := ω) (χ := χ)
    fun k d => k < p.retries ∧ d = p.backoff k
  have hgood : ∀ a b, follow p env pause a = some b → good a → good b := by
    intro a b hab _
    rcases follow_cases p env pause hab with ⟨j, k, s, rfl, rfl⟩ |
      ⟨j, k, s, o, rfl, -, hk, rfl⟩ | ⟨j, k, s, d, rfl, rfl⟩ | ⟨j, k, s, rfl, rfl⟩
    · trivial
    · exact ⟨hk, rfl⟩
    · trivial
    · trivial
  exact (run_path p i env pause s).rel_of_mem (R := fun a b => good a → good b)
    (fun _ ha => ha) (fun _ _ _ hab hbc ha => hbc (hab ha)) hgood h trivial

/-- The event that ends a run with the given exit and final state. -/
def lastEvent (i : ι) (k : ℕ) (r : Run (Event ι σ ω δ χ) (Exit ω χ) σ) :
    Event ι σ ω δ χ :=
  match r.result with
  | .done o => .returned i k r.state o
  | .interrupted _ x => .woke i k r.state (some x)

/-- The attempts of a loop are numbered without gaps, there are at most `n + 1`
of them, and the last event belongs to the last of them and carries the result
and the final state. -/
theorem loop_last (p : Policy ω δ) (i : ι) (env : σ → ω × σ)
    (pause : δ → σ → Option χ × σ) (k n : ℕ) (s : σ) :
    ∃ pre m, m ≤ n ∧
      ((loop p i (Traced.lift env) pause k n).exec s).events =
        pre ++ [lastEvent i (k + m) ((loop p i (Traced.lift env) pause k n).exec s)] ∧
      ((loop p i (Traced.lift env) pause k n).exec s).events.filterMap Event.attempt? =
        List.range' k (m + 1) := by
  induction n generalizing k s with
  | zero =>
      rw [loop_done p i _ pause k 0 s (.inl rfl)]
      exact ⟨[.call i k s], 0, Nat.le_refl 0, by simp [lastEvent],
        by simp [Event.attempt?]⟩
  | succ n ih =>
      cases hretry : p.retry (env s).1 with
      | false =>
          rw [loop_done p i _ pause k (n + 1) s (.inr hretry)]
          exact ⟨[.call i k s], 0, Nat.zero_le _, by simp [lastEvent],
            by simp [Event.attempt?]⟩
      | true =>
          cases hpause : (pause (p.backoff k) (env s).2).1 with
          | some x =>
              rw [loop_interrupted p i _ pause k n s x hretry hpause]
              exact ⟨[.call i k s, .returned i k (env s).2 (env s).1,
                .wait i k (env s).2 (p.backoff k)], 0, Nat.zero_le _,
                by simp [lastEvent], by simp [Event.attempt?]⟩
          | none =>
              obtain ⟨pre, m, hm, hlast, hattempts⟩ :=
                ih (k + 1) (pause (p.backoff k) (env s).2).2
              rw [loop_again p i _ pause k n s hretry hpause]
              refine ⟨.call i k s :: .returned i k (env s).2 (env s).1 ::
                .wait i k (env s).2 (p.backoff k) ::
                  .woke i k (pause (p.backoff k) (env s).2).2 none :: pre,
                m + 1, Nat.succ_le_succ hm, ?_, ?_⟩
              · have hnumber : k + 1 + m = k + (m + 1) := by omega
                rw [hnumber] at hlast
                simpa [lastEvent] using hlast
              · rw [Run.after_events, List.filterMap_append]
                simp only [Traced.exec_lift]
                rw [hattempts, List.range'_succ (s := k)]
                rfl

/-- A loop whose pauses are never interrupted ends with an outcome. -/
theorem loop_exit_done (p : Policy ω δ) (i : ι) (call : Traced (Event ι σ ω δ χ) σ ω)
    (pause : δ → σ → Option χ × σ) (hquiet : ∀ d s, (pause d s).1 = none)
    (k n : ℕ) (s : σ) : ∃ o, ((loop p i call pause k n).exec s).result = .done o := by
  induction n generalizing k s with
  | zero => exact ⟨_, by rw [loop_done p i call pause k 0 s (.inl rfl)]⟩
  | succ n ih =>
      cases hretry : p.retry (call.exec s).result with
      | false => exact ⟨_, by rw [loop_done p i call pause k (n + 1) s (.inr hretry)]⟩
      | true =>
          rw [loop_again p i call pause k n s hretry (hquiet _ _)]
          exact ih (k + 1) _

end Policy

def Exit.map {ω ω' χ χ' : Type} (f : ω → ω') (h : χ → χ') : Exit ω χ → Exit ω' χ'
  | .done o => .done (f o)
  | .interrupted o x => .interrupted (f o) (h x)

namespace Policy

section Map

variable {ι σ ω ω' δ δ' χ χ' : Type} (p : Policy ω δ) (p' : Policy ω' δ')
  (f : ω → ω') (g : δ' → δ) (h : χ → χ') (env : σ → ω × σ)
  (pause : δ → σ → Option χ × σ) (pause' : δ' → σ → Option χ' × σ)

/-- Two loops whose policies, attempts and pauses correspond have corresponding
runs: the same states, and renamed outcomes, durations and interrupts. -/
theorem loop_map (i : ι) (hretry : ∀ o, p'.retry (f o) = p.retry o)
    (hpause : ∀ d s, pause' d s = ((pause (g d) s).1.map h, (pause (g d) s).2))
    (k n : ℕ) (hbackoff : ∀ j, k ≤ j → j < k + n → g (p'.backoff j) = p.backoff j)
    (s : σ) :
    let r := (loop p i (Traced.lift env) pause k n).exec s
    let r' := (loop p' i (Traced.lift fun s => (f (env s).1, (env s).2)) pause' k n).exec s
    r'.result = r.result.map f h ∧
      r'.events.map (Event.map id g id) = r.events.map (Event.map f id h) ∧
      r'.state = r.state := by
  induction n generalizing k s with
  | zero =>
      rw [loop_done p i _ pause k 0 s (.inl rfl),
        loop_done p' i _ pause' k 0 s (.inl rfl)]
      simp [Exit.map, Event.map]
  | succ n ih =>
      have hk : g (p'.backoff k) = p.backoff k := hbackoff k (Nat.le_refl k) (by omega)
      cases hr : p.retry (env s).1 with
      | false =>
          have hr' : p'.retry (f (env s).1) = false := (hretry _).trans hr
          rw [loop_done p i _ pause k (n + 1) s (.inr hr),
            loop_done p' i _ pause' k (n + 1) s (.inr hr')]
          simp [Exit.map, Event.map]
      | true =>
          have hr' : p'.retry (f (env s).1) = true := (hretry _).trans hr
          have hp := hpause (p'.backoff k) (env s).2
          rw [hk] at hp
          cases hx : (pause (p.backoff k) (env s).2).1 with
          | some x =>
              have hx' : (pause' (p'.backoff k) (env s).2).1 = some (h x) := by
                rw [hp, hx]; rfl
              rw [loop_interrupted p i _ pause k n s x hr hx,
                loop_interrupted p' i _ pause' k n s (h x) hr' hx']
              simp [Exit.map, Event.map, hp, hk]
          | none =>
              have hx' : (pause' (p'.backoff k) (env s).2).1 = none := by
                rw [hp, hx]; rfl
              have hstate : (pause' (p'.backoff k) (env s).2).2 =
                  (pause (p.backoff k) (env s).2).2 := by rw [hp]
              have tail := ih (k + 1) (fun j hj hj' => hbackoff j (by omega) (by omega))
                (pause (p.backoff k) (env s).2).2
              rw [loop_again p i _ pause k n s hr hx,
                loop_again p' i _ pause' k n s hr' hx']
              simp only [Traced.exec_lift] at tail ⊢
              rw [hstate]
              refine ⟨tail.1, ?_, tail.2.2⟩
              simp [Event.map, hk, tail.2.1]

end Map

end Policy

end Retry
