import Mathlib.Data.List.Basic
import Mathlib.Tactic.Push

/-!
# Runs of a labelled transition relation

`Runs step s as t` says that the actions `as`, taken in order, lead from `s` to
`t`. What every step keeps, every run keeps; a quantity that every step lowers
bounds the length of a run, and then every run can be continued to one that
cannot be continued any further. Steps may be looked at under an invariant.
-/

namespace Transition

variable {S S' A : Type}

inductive Runs (step : S → A → S → Prop) : S → List A → S → Prop
  | nil (s : S) : Runs step s [] s
  | cons {s t u : S} {a : A} {as : List A} (h : step s a t) (tail : Runs step t as u) :
      Runs step s (a :: as) u

/-- No step is possible. -/
def Stuck (step : S → A → S → Prop) (s : S) : Prop := ∀ a t, ¬ step s a t

namespace Runs

variable {step : S → A → S → Prop} {s t u : S} {as bs : List A}

theorem append (h : Runs step s as t) (h' : Runs step t bs u) : Runs step s (as ++ bs) u := by
  induction h with
  | nil s => exact h'
  | cons hstep tail ih => exact .cons hstep (ih h')

/-- What every step keeps, every run keeps. -/
theorem invariant {inv : S → Prop} (hstep : ∀ s a t, step s a t → inv s → inv t)
    (h : Runs step s as t) (hs : inv s) : inv t := by
  induction h with
  | nil s => exact hs
  | cons hst tail ih => exact ih (hstep _ _ _ hst hs)

variable {inv : S → Prop} {measure : S → ℕ}

/-- A quantity that every step lowers bounds the length of a run. -/
theorem length_add_le (hinv : ∀ s a t, step s a t → inv s → inv t)
    (hlt : ∀ s a t, step s a t → inv s → measure t < measure s) (h : Runs step s as t)
    (hs : inv s) : as.length + measure t ≤ measure s := by
  induction h with
  | nil s => simp
  | cons hst tail ih =>
      have htail := ih (hinv _ _ _ hst hs)
      have hfirst := hlt _ _ _ hst hs
      rw [List.length_cons]
      omega

/-- From every state that satisfies the invariant some run leads to the end. -/
theorem exists_stuck (hinv : ∀ s a t, step s a t → inv s → inv t)
    (hlt : ∀ s a t, step s a t → inv s → measure t < measure s) (s : S) (hs : inv s) :
    ∃ as t, Runs step s as t ∧ Stuck step t := by
  induction hm : measure s using Nat.strongRecOn generalizing s with
  | _ m ih =>
      by_cases hstuck : Stuck step s
      · exact ⟨[], s, .nil s, hstuck⟩
      · unfold Stuck at hstuck
        push Not at hstuck
        obtain ⟨a, t, hst⟩ := hstuck
        obtain ⟨as, u, hrun, hu⟩ :=
          ih (measure t) (hm ▸ hlt s a t hst hs) t (hinv s a t hst hs) rfl
        exact ⟨a :: as, u, .cons hst hrun, hu⟩

/-- What a view of the states makes of every step, it makes of every run. -/
theorem map {step' : S' → A → S' → Prop} {f : S → S'}
    (hstep : ∀ s a t, step s a t → step' (f s) a (f t)) (h : Runs step s as t) :
    Runs step' (f s) as (f t) := by
  induction h with
  | nil s => exact .nil (f s)
  | cons hst tail ih => exact .cons (hstep _ _ _ hst) ih

/-- Runs are matched step by step along a relation between states. -/
theorem simulate {step' : S' → A → S' → Prop} {rel : S → S' → Prop}
    (hsim : ∀ s s' a t, rel s s' → step s a t → ∃ t', step' s' a t' ∧ rel t t')
    (h : Runs step s as t) {s' : S'} (hs : rel s s') :
    ∃ t', Runs step' s' as t' ∧ rel t t' := by
  induction h generalizing s' with
  | nil s => exact ⟨s', .nil s', hs⟩
  | cons hst tail ih =>
      obtain ⟨t', hst', ht⟩ := hsim _ _ _ _ hs hst
      obtain ⟨u', hrun, hu⟩ := ih ht
      exact ⟨u', .cons hst' hrun, hu⟩

end Runs

end Transition
