import ConnectExamples.Retry.Trace

/-!
# A retry loop that is told its outcomes

The loop of a policy as a machine: it calls, hears an outcome, pauses and calls
again, and in between the rest of the world may do anything. `Heard p os ph` says
that the machine is in phase `ph` after it has heard the outcomes `os`, in this
order. A machine that has ended did what the loop does when its attempts have
these outcomes (`run_script`), so what is known of the loop holds of the machine
wherever it is put.
-/

namespace Retry

open Tracing

variable {ι ω δ : Type}

/-- Traces that agree up to renaming make the same attempts. -/
theorem Event.attempts_eq {σ ω₁ ω₂ ω₃ δ₁ δ₂ δ₃ χ₁ χ₂ χ₃ : Type}
    {f₁ : ω₁ → ω₃} {f₂ : ω₂ → ω₃} {g₁ : δ₁ → δ₃} {g₂ : δ₂ → δ₃} {h₁ : χ₁ → χ₃} {h₂ : χ₂ → χ₃}
    {es₁ : List (Event ι σ ω₁ δ₁ χ₁)} {es₂ : List (Event ι σ ω₂ δ₂ χ₂)}
    (h : es₁.map (Event.map f₁ g₁ h₁) = es₂.map (Event.map f₂ g₂ h₂)) :
    es₁.filterMap Event.attempt? = es₂.filterMap Event.attempt? := by
  have hmap {ω₀ δ₀ χ₀ : Type} (f : ω₀ → ω₃) (g : δ₀ → δ₃) (h' : χ₀ → χ₃)
      (es : List (Event ι σ ω₀ δ₀ χ₀)) :
      (es.map (Event.map f g h')).filterMap Event.attempt? = es.filterMap Event.attempt? := by
    rw [List.filterMap_map]
    exact congrArg (fun a => es.filterMap a) (funext fun e => by cases e <;> rfl)
  rw [← hmap f₁ g₁ h₁, h, hmap]

/-- Where a loop stands; the counter is the number of the current attempt. -/
inductive Phase (ω : Type) where
  | ready (k : ℕ)
  | calling (k : ℕ)
  | pausing (k : ℕ)
  | ended (k : ℕ) (o : ω)
  deriving DecidableEq

namespace Phase

/-- The number of attempts that were started. -/
def started : Phase ω → ℕ
  | ready k => k
  | calling k | pausing k | ended k _ => k + 1

end Phase

namespace Policy

variable (p : Policy ω δ)

/-- What follows when attempt `k` has the outcome `o`. -/
def afterOutcome (k : ℕ) (o : ω) : Phase ω :=
  if p.retry o && decide (k < p.retries) then .pausing k else .ended k o

/-- The phases that a loop goes through while it hears outcomes. -/
inductive Heard : List ω → Phase ω → Prop
  | start : Heard [] (.ready 0)
  | call {os : List ω} {k : ℕ} (h : Heard os (.ready k)) : Heard os (.calling k)
  | hear {os : List ω} {k : ℕ} (h : Heard os (.calling k)) (o : ω) :
      Heard (os ++ [o]) (p.afterOutcome k o)
  | wake {os : List ω} {k : ℕ} (h : Heard os (.pausing k)) : Heard os (.ready (k + 1))

/-- What a phase says about the outcomes heard so far: all but the last one of an
ended loop asked for another attempt, and there was one left each time. -/
def Records (os : List ω) : Phase ω → Prop
  | .ready k | .calling k => os.length = k ∧ k ≤ p.retries ∧ ∀ o ∈ os, p.retry o = true
  | .pausing k => os.length = k + 1 ∧ k < p.retries ∧ ∀ o ∈ os, p.retry o = true
  | .ended k o => ∃ init, os = init ++ [o] ∧ init.length = k ∧ k ≤ p.retries ∧
      (∀ a ∈ init, p.retry a = true) ∧ (p.retry o = false ∨ k = p.retries)

theorem Heard.records {p : Policy ω δ} {os : List ω} {ph : Phase ω} (h : p.Heard os ph) :
    p.Records os ph := by
  induction h with
  | start => exact ⟨rfl, Nat.zero_le _, by simp⟩
  | call h ih => exact ih
  | @hear os k h o ih =>
      obtain ⟨hlength, hk, hask⟩ := ih
      unfold afterOutcome
      by_cases hmore : p.retry o = true ∧ k < p.retries
      · have hcond : (p.retry o && decide (k < p.retries)) = true := by simp [hmore]
        rw [if_pos hcond]
        refine ⟨by simp [hlength], hmore.2, fun a ha => ?_⟩
        rcases List.mem_append.mp ha with hmem | hlast
        · exact hask a hmem
        · rw [List.mem_singleton.mp hlast]
          exact hmore.1
      · have hcond : ¬ (p.retry o && decide (k < p.retries)) = true := by simpa using hmore
        rw [if_neg hcond]
        refine ⟨os, rfl, hlength, hk, hask, ?_⟩
        rw [not_and_or, Bool.not_eq_true] at hmore
        exact hmore.imp_right fun h => Nat.le_antisymm hk (Nat.le_of_not_lt h)
  | wake h ih => exact ⟨ih.1, ih.2.1, ih.2.2⟩

/-- At most `retries + 1` attempts are started. -/
theorem Heard.started_le {p : Policy ω δ} {os : List ω} {ph : Phase ω} (h : p.Heard os ph) :
    ph.started ≤ p.retries + 1 := by
  have hrecords := h.records
  cases ph with
  | ready k => exact Nat.le_succ_of_le hrecords.2.1
  | calling k => exact Nat.succ_le_succ hrecords.2.1
  | pausing k => exact Nat.succ_le_succ (Nat.le_of_lt hrecords.2.1)
  | ended k o =>
      obtain ⟨init, -, -, hk, -⟩ := hrecords
      exact Nat.succ_le_succ hk

section Script

variable {χ : Type}

/-- An environment that gives prepared outcomes. -/
def script (o₀ : ω) : List ω → ω × List ω
  | [] => (o₀, [])
  | o :: os => (o, os)

variable (i : ι) (pause : δ → List ω → Option χ × List ω) (hpause : ∀ d os, pause d os = (none, os))
  (o₀ : ω)

include hpause

theorem loop_script (k n : ℕ) (init : List ω) (o : ω) (hinit : init.length ≤ n)
    (hask : ∀ a ∈ init, p.retry a = true) (hlast : p.retry o = false ∨ init.length = n) :
    let r := (loop p i (Traced.lift (script o₀)) pause k n).exec (init ++ [o])
    r.result = .done o ∧ r.state = [] ∧
      r.events.filterMap Event.attempt? = List.range' k (init.length + 1) := by
  induction init generalizing k n with
  | nil =>
      intro r
      have hstop : n = 0 ∨ p.retry o = false := hlast.symm.imp_left Eq.symm
      simp only [r, List.nil_append, loop_done p i (Traced.lift (script o₀)) pause k n [o] hstop]
      exact ⟨rfl, rfl, rfl⟩
  | cons a init ih =>
      intro r
      obtain ⟨n, rfl⟩ : ∃ m, n = m + 1 := ⟨n - 1, by simp at hinit; omega⟩
      have tail := ih (k + 1) n (by simpa using hinit)
        (fun b hb => hask b (List.mem_cons_of_mem a hb)) (by simpa using hlast)
      have hround := loop_again p i (Traced.lift (script o₀)) pause k n (a :: init ++ [o])
        (hask a List.mem_cons_self) (by rw [hpause])
      simp only [r, hround, hpause]
      refine ⟨tail.1, tail.2.1, ?_⟩
      rw [Run.after_events, List.filterMap_append]
      simp only [Traced.exec_lift, script, List.cons_append]
      rw [tail.2.2, List.length_cons, List.range'_succ (s := k)]
      rfl

/-- A machine that has ended did what the loop does when its attempts have the
outcomes that the machine has heard. -/
theorem run_script {os : List ω} {k : ℕ} {o : ω} (h : p.Heard os (.ended k o)) :
    let r := (run p i (Traced.lift (script o₀)) pause).exec os
    r.result = .done o ∧ r.state = [] ∧
      r.events.filterMap Event.attempt? = List.range (k + 1) := by
  obtain ⟨init, rfl, rfl, hk, hask, hlast⟩ := h.records
  rw [List.range_eq_range']
  exact loop_script p i pause hpause o₀ 0 p.retries init o hk hask hlast

end Script

end Policy

end Retry
