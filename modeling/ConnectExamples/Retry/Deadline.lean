import ConnectExamples.Retry.Trace
import Mathlib.Algebra.Order.Monoid.Defs

/-!
# Retry loops against a clock and a deadline

States carry an instant (`clock`), durations a length (`len`), and a deadline
`done` is an instant or never. `Obeys` says how attempts and pauses behave in
time: an attempt takes any time, a pause that was not interrupted takes its
length, no pause outlasts its length or the deadline, and a pause entered after
the deadline is interrupted. The theorems bound what a run does after the
deadline, for every policy whose pauses have positive length.
-/

namespace Retry

open Tracing

variable {ι σ ω δ χ T : Type} [LinearOrder T] [Add T] [Zero T]

/-- The behaviour in time of the attempts `env` and the pauses `pause`. -/
structure Obeys (clock : σ → T) (len : δ → T) (done : Option T)
    (env : σ → ω × σ) (pause : δ → σ → Option χ × σ) : Prop where
  call_le : ∀ s, clock s ≤ clock (env s).2
  pause_le : ∀ d s, 0 < len d → clock s ≤ clock (pause d s).2
  timer : ∀ d s, (pause d s).1 = none → clock (pause d s).2 = clock s + len d
  prompt : ∀ d s, clock (pause d s).2 ≤ clock s + len d
  prompt_done : ∀ D ∈ done, ∀ d s, clock (pause d s).2 ≤ max (clock s) D
  late : ∀ D ∈ done, ∀ d s, D ≤ clock s → 0 < len d → (pause d s).1 ≠ none

def Event.isLateCall (clock : σ → T) (D : T) : Event ι σ ω δ χ → Bool
  | .call _ _ s => decide (D ≤ clock s)
  | _ => false

/-- A test that no element after a hit passes hits at most once. -/
theorem countP_le_one_of_tail {α : Type} (test : α → Bool) :
    ∀ l : List α, (∀ pre a post, l = pre ++ a :: post → test a = true →
      ∀ b ∈ post, test b = false) → l.countP test ≤ 1
  | [], _ => by simp
  | a :: l, h => by
      have ih : l.countP test ≤ 1 := by
        refine countP_le_one_of_tail test l fun pre b post hl => ?_
        exact h (a :: pre) b post (by rw [hl]; rfl)
      cases ha : test a with
      | false => simpa [List.countP_cons, ha] using ih
      | true =>
          have hnone : l.countP test = 0 := by
            rw [List.countP_eq_zero]
            intro b hb
            simp [h [] a l rfl ha b hb]
          simp [ha, hnone]

namespace Policy

variable (p : Policy ω δ) (i : ι) {clock : σ → T} {len : δ → T} {done : Option T}
  {env : σ → ω × σ} {pause : δ → σ → Option χ × σ}

/-- Time does not run backwards along a run. -/
theorem clock_le_of_mem_tail (hobeys : Obeys clock len done env pause)
    (hlen : ∀ k < p.retries, 0 < len (p.backoff k)) {s : σ} {pre post : List (Event ι σ ω δ χ)}
    {a b : Event ι σ ω δ χ}
    (h : ((run p i (Traced.lift env) pause).exec s).events = pre ++ a :: post)
    (hb : b ∈ post) : clock a.state ≤ clock b.state := by
  -- the pauses of the run are among those of the policy, so they take positive time
  let good := Event.Paused (ι := ι) (σ := σ) (ω := ω) (χ := χ) fun _ d => 0 < len d
  have hstep : ∀ a b : Event ι σ ω δ χ, follow p env pause a = some b →
      good a → clock a.state ≤ clock b.state ∧ good b := by
    intro a b hab ha
    rcases follow_cases p env pause hab with ⟨j, k, s, rfl, rfl⟩ |
      ⟨j, k, s, o, rfl, -, hk, rfl⟩ | ⟨j, k, s, d, rfl, rfl⟩ | ⟨j, k, s, rfl, rfl⟩
    · exact ⟨hobeys.call_le s, trivial⟩
    · exact ⟨le_refl _, hlen k hk⟩
    · exact ⟨hobeys.pause_le d s ha, trivial⟩
    · exact ⟨le_refl _, trivial⟩
  have hgood : good a := by
    cases a with
    | wait j k s' d =>
        have hmem : .wait j k s' d ∈ ((run p i (Traced.lift env) pause).exec s).events := by
          rw [h]; simp
        obtain ⟨hk, rfl⟩ := wait_backoff p i env pause hmem
        exact hlen k hk
    | _ => trivial
  exact (rel_of_mem_tail p i env pause
    (R := fun a b => good a → clock a.state ≤ clock b.state ∧ good b)
    (fun _ ha => ⟨le_refl _, ha⟩)
    (fun _ _ _ hab hbc ha => ⟨(hab ha).1.trans (hbc (hab ha).2).1, (hbc (hab ha).2).2⟩)
    hstep h hb hgood).1

/-- After an attempt that starts at or after the deadline there is no other. -/
theorem not_isCall_of_late (hobeys : Obeys clock len done env pause)
    (hlen : ∀ k < p.retries, 0 < len (p.backoff k)) {D : T} (hD : D ∈ done) {s s' : σ}
    {pre post : List (Event ι σ ω δ χ)} {j : ι} {k : ℕ}
    (h : ((run p i (Traced.lift env) pause).exec s).events =
      pre ++ .call j k s' :: post)
    (hlate : D ≤ clock s') : ∀ b ∈ post, b.isCall = false := by
  have hafter : D ≤ clock (env s').2 := hlate.trans (hobeys.call_le s')
  obtain ⟨rest, rfl, -⟩ := ((run_path p i env pause s).suffix h).tail_of_next rfl
  rw [List.append_cons] at h
  by_cases hmore : p.retry (env s').1 = true ∧ k < p.retries
  · obtain ⟨rest, rfl⟩ := wait_of_returned p i env pause h hmore.1 hmore.2
    rw [List.append_cons] at h
    obtain ⟨rest, rfl⟩ := woke_of_wait p i env pause h
    rw [List.append_cons] at h
    obtain ⟨x, hx⟩ := Option.ne_none_iff_exists'.mp
      (hobeys.late D hD (p.backoff k) (env s').2 hafter (hlen k hmore.2))
    rw [hx] at h ⊢
    obtain rfl := nil_of_interrupt p i env pause h
    simp [Event.isCall]
  · rw [not_and_or, Bool.not_eq_true, not_lt] at hmore
    obtain rfl := (returned_last_iff p i env pause h).mpr hmore
    simp [Event.isCall]

theorem countP_isLateCall_le_one (hobeys : Obeys clock len done env pause)
    (hlen : ∀ k < p.retries, 0 < len (p.backoff k)) {D : T} (hD : D ∈ done) (s : σ) :
    ((run p i (Traced.lift env) pause).exec s).events.countP
      (Event.isLateCall clock D) ≤ 1 := by
  refine countP_le_one_of_tail _ _ fun pre a post h ha b hb => ?_
  cases a with
  | call j k s' =>
      have hcall := not_isCall_of_late p i hobeys hlen hD h (of_decide_eq_true ha) b hb
      cases b with
      | call => simp [Event.isCall] at hcall
      | _ => rfl
  | _ => simp [Event.isLateCall] at ha

/-- A pause cannot end early and still lead to another attempt. -/
theorem le_clock_of_call (hobeys : Obeys clock len done env pause)
    (hlen : ∀ k < p.retries, 0 < len (p.backoff k)) {s s' : σ} {d : δ}
    {pre post : List (Event ι σ ω δ χ)} {j : ι} {k : ℕ}
    (h : ((run p i (Traced.lift env) pause).exec s).events =
      pre ++ .wait j k s' d :: post)
    {b : Event ι σ ω δ χ} (hb : b ∈ post) (hcall : b.isCall = true) :
    clock s' + len d ≤ clock b.state := by
  obtain ⟨rest, rfl⟩ := woke_of_wait p i env pause h
  rw [List.append_cons] at h
  have hrest : b ∈ rest := by
    rcases List.mem_cons.mp hb with rfl | hmem
    · simp [Event.isCall] at hcall
    · exact hmem
  cases hx : (pause d s').1 with
  | some x =>
      rw [hx] at h
      rw [nil_of_interrupt p i env pause h] at hrest
      cases hrest
  | none =>
      rw [← hobeys.timer d s' hx]
      exact clock_le_of_mem_tail p i hobeys hlen h hrest

end Policy

end Retry
