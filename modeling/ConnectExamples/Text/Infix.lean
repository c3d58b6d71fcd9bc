import Mathlib.Data.List.Infix

/-!
# Where a pattern occurs in a text with separators

A pattern that does not mention the separator lies within one segment of a
text, so a substring search over the whole text is a search over its segments.
-/

namespace Text

variable {α : Type} {sep : α} {p a b : List α}

/-- An occurrence that ends after a separator it does not contain starts after
it. -/
theorem suffix_of_append_eq {s r : List α} (hsep : sep ∉ p) (h : s ++ p = a ++ sep :: r) :
    p <:+ r := by
  rcases List.append_eq_append_iff.mp h with ⟨q, -, hp⟩ | ⟨q, -, hp⟩
  · exact absurd (hp ▸ List.mem_append_right q List.mem_cons_self) hsep
  · cases q with
    | nil =>
        have hnil : sep :: r = p := hp
        exact absurd (hnil ▸ List.mem_cons_self) hsep
    | cons y q => exact ⟨q, (List.cons.inj hp).2.symm⟩

/-- A pattern without the separator occurs on one side of it. -/
theorem infix_append_sep_iff (hsep : sep ∉ p) :
    p <:+: a ++ sep :: b ↔ p <:+: a ∨ p <:+: b := by
  constructor
  · rintro ⟨s, t, h⟩
    rcases List.append_eq_append_iff.mp h with ⟨r, rfl, -⟩ | ⟨r, hr, hrt⟩
    · exact .inl ⟨s, r, rfl⟩
    · cases r with
      | nil => exact .inl ⟨s, [], by simpa using hr⟩
      | cons x r =>
          obtain ⟨rfl, rfl⟩ := List.cons.inj hrt
          exact .inr ((suffix_of_append_eq hsep hr).isInfix.trans
            (List.prefix_append r t).isInfix)
  · rintro (h | h)
    · exact h.trans (List.prefix_append a _).isInfix
    · exact h.trans ((List.suffix_cons sep b).trans (List.suffix_append a _)).isInfix

/-- A separator in front of a text adds no occurrence. -/
theorem infix_cons_sep_iff (hsep : sep ∉ p) : p <:+: sep :: b ↔ p <:+: b := by
  have h := infix_append_sep_iff (a := []) (b := b) hsep
  rw [List.nil_append] at h
  rw [h]
  constructor
  · rintro (hnil | hb)
    · exact hnil.trans List.nil_infix
    · exact hb
  · exact .inr

end Text
