import Mathlib.Data.List.Basic
import Mathlib.Order.Basic

/-!
# Maximal runs of a partial step function

`Path next a l` says that `l` is the whole run of the partial function `next`
from `a`: it starts at `a`, every element is followed by its successor, and it
ends where there is none. A property of a run is then proved about one step:
`suffix` cuts the run at any element, `head_next` reads its successor off, and
`rel_of_mem` carries a preorder along the run.
-/

namespace Retry

/-- `l` is the run of `next` from `a`, up to the first element that has no
successor. -/
inductive Path {α : Type} (next : α → Option α) : α → List α → Prop
  | stop {a : α} (h : next a = none) : Path next a [a]
  | step {a b : α} {l : List α} (h : next a = some b) (tail : Path next b l) :
      Path next a (a :: l)

namespace Path

variable {α : Type} {next : α → Option α}

theorem ne_nil {a : α} {l : List α} (h : Path next a l) : l ≠ [] := by
  cases h <;> simp

theorem head_eq {a b : α} {l : List α} (h : Path next a (b :: l)) : a = b := by
  cases h <;> rfl

/-- Cutting a run in front of an element leaves the run from that element. -/
theorem suffix {a b : α} {l pre post : List α} (h : Path next a l)
    (hl : l = pre ++ b :: post) : Path next b (b :: post) := by
  induction h generalizing pre with
  | @stop a hstop =>
      cases pre with
      | nil =>
          obtain ⟨rfl, rfl⟩ := List.cons.inj hl
          exact .stop hstop
      | cons c pre => simp at hl
  | @step a c l hstep tail ih =>
      cases pre with
      | nil =>
          obtain ⟨rfl, rfl⟩ := List.cons.inj hl
          exact .step hstep tail
      | cons d pre => exact ih (List.cons.inj hl).2

/-- What follows the first element of a run: nothing if it has no successor,
and otherwise the run from its successor. -/
theorem tail_eq {a : α} {l : List α} (h : Path next a (a :: l)) :
    (next a = none ∧ l = []) ∨ ∃ b, next a = some b ∧ Path next b l := by
  cases h with
  | stop hstop => exact .inl ⟨hstop, rfl⟩
  | step hstep tail => exact .inr ⟨_, hstep, tail⟩

theorem tail_nil_iff {a : α} {l : List α} (h : Path next a (a :: l)) :
    l = [] ↔ next a = none := by
  rcases h.tail_eq with ⟨hstop, rfl⟩ | ⟨b, hstep, tail⟩
  · simp [hstop]
  · simp [hstep, tail.ne_nil]

theorem tail_of_next {a b : α} {l : List α} (h : Path next a (a :: l))
    (hb : next a = some b) : ∃ post, l = b :: post ∧ Path next b (b :: post) := by
  rcases h.tail_eq with ⟨hstop, -⟩ | ⟨c, hstep, tail⟩
  · simp [hb] at hstop
  · obtain rfl : c = b := Option.some.inj (hstep.symm.trans hb)
    cases l with
    | nil => exact absurd rfl tail.ne_nil
    | cons d post =>
        obtain rfl := tail.head_eq
        exact ⟨post, rfl, tail⟩

/-- A relation that every step respects holds between the start of a run and
each of its elements. -/
theorem rel_of_mem {R : α → α → Prop} (hrefl : ∀ a, R a a)
    (htrans : ∀ a b c, R a b → R b c → R a c)
    (hstep : ∀ a b, next a = some b → R a b) {a c : α} {l : List α}
    (h : Path next a l) (hc : c ∈ l) : R a c := by
  induction h with
  | @stop a hstop =>
      rw [List.mem_singleton] at hc
      rw [hc]
      exact hrefl a
  | @step a b l hab tail ih =>
      rcases List.mem_cons.mp hc with rfl | hmem
      · exact hrefl c
      · exact htrans a b c (hstep a b hab) (ih hmem)

end Path

end Retry
