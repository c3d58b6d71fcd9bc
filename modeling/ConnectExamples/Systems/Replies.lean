import Mathlib.Data.List.Basic
import Mathlib.Data.List.Forall2

/-!
# Objects that answer calls

An object takes one call after another: it replies and goes on, or it stops and replies
no more. Objects whose steps match along a relation give the same replies to all calls;
the relation may look at the calls that are still to come. What every step keeps holds
after all calls.
-/

namespace Replies

variable {S S' C R : Type}

/-- The replies to a list of calls, up to the call at which the object stops. -/
def replies (step : S → C → Option (R × S)) : S → List C → List R
  | _, [] => []
  | s, c :: cs =>
      match step s c with
      | none => []
      | some (r, t) => r :: replies step t cs

/-- The state after a list of calls, if the object did not stop. -/
def after (step : S → C → Option (R × S)) : S → List C → Option S
  | s, [] => some s
  | s, c :: cs =>
      match step s c with
      | none => none
      | some (_, t) => after step t cs

/-- Two objects stop together, or give the same reply and go on to related states. -/
abbrev Alike (rel : S → S' → Prop) : Option (R × S) → Option (R × S') → Prop :=
  Option.Rel fun x y => x.1 = y.1 ∧ rel x.2 y.2

section Match

variable {step : S → C → Option (R × S)} {step' : S' → C → Option (R × S')}
  {rel : List C → S → S' → Prop}
  (hstep : ∀ c cs s s', rel (c :: cs) s s' → Alike (rel cs) (step s c) (step' s' c))

include hstep

/-- Objects whose steps match give the same replies. -/
theorem replies_eq (cs : List C) (s : S) (s' : S') (h : rel cs s s') :
    replies step s cs = replies step' s' cs := by
  induction cs generalizing s s' with
  | nil => rfl
  | cons c cs ih =>
      have hfirst := hstep c cs s s' h
      rw [replies, replies]
      generalize step s c = x at hfirst ⊢
      generalize step' s' c = y at hfirst ⊢
      cases hfirst with
      | none => rfl
      | some hxy => exact congrArg₂ List.cons hxy.1 (ih _ _ hxy.2)

/-- They are in related states after all calls. -/
theorem after_rel (cs : List C) (s : S) (s' : S') (h : rel cs s s') :
    Option.Rel (rel []) (after step s cs) (after step' s' cs) := by
  induction cs generalizing s s' with
  | nil => exact .some h
  | cons c cs ih =>
      have hfirst := hstep c cs s s' h
      rw [after, after]
      generalize step s c = x at hfirst ⊢
      generalize step' s' c = y at hfirst ⊢
      cases hfirst with
      | none => exact .none
      | some hxy => exact ih _ _ hxy.2

end Match

theorem after_cons_eq_some {step : S → C → Option (R × S)} {c : C} {cs : List C} {s t : S} :
    after step s (c :: cs) = some t ↔
      ∃ r u, step s c = some (r, u) ∧ after step u cs = some t := by
  rw [after]
  cases step s c with
  | none => simp
  | some x => exact ⟨fun h => ⟨x.1, x.2, rfl, h⟩, by rintro ⟨r, u, ⟨⟩, h⟩; exact h⟩

theorem after_append (step : S → C → Option (R × S)) (cs ds : List C) (s : S) :
    after step s (cs ++ ds) = (after step s cs).bind fun t => after step t ds := by
  induction cs generalizing s with
  | nil => rfl
  | cons c cs ih =>
      rw [List.cons_append, after, after]
      cases step s c with
      | none => rfl
      | some x => exact ih x.2

/-- What every step keeps, the calls keep. -/
theorem after_invariant {step : S → C → Option (R × S)} {inv : S → Prop} {cs : List C}
    (hstep : ∀ c ∈ cs, ∀ s r t, step s c = some (r, t) → inv s → inv t) {s t : S}
    (h : after step s cs = some t) (hs : inv s) : inv t := by
  induction cs generalizing s with
  | nil =>
      cases h
      exact hs
  | cons c cs ih =>
      obtain ⟨r, u, hfirst, hrest⟩ := after_cons_eq_some.mp h
      exact ih (fun d hd => hstep d (List.mem_cons_of_mem c hd)) hrest
        (hstep c List.mem_cons_self s r u hfirst hs)

section Forall₂

variable {α β : Type} {r : α → β → Prop} {l : List α} {l' : List β}

theorem forall₂_getElem? (h : List.Forall₂ r l l') (i : ℕ) : Option.Rel r l[i]? l'[i]? := by
  induction h generalizing i with
  | nil => exact .none
  | cons hab _ ih =>
      cases i with
      | zero => exact .some hab
      | succ i => exact ih i

theorem forall₂_set (h : List.Forall₂ r l l') {a : α} {b : β} (hab : r a b) (i : ℕ) :
    List.Forall₂ r (l.set i a) (l'.set i b) := by
  induction h generalizing i with
  | nil => exact .nil
  | cons hcd htail ih =>
      cases i with
      | zero => exact .cons hab htail
      | succ i => exact .cons hcd (ih i)

end Forall₂

end Replies
