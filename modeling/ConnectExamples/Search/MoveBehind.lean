import Mathlib.Data.List.Perm.Basic

/-!
# Moving part of a search path behind the rest

A search path is asked from the left for the first entry that has what is
looked for. `moveBehind p` moves the entries with property `p` behind the others
and keeps the order on either side: nothing is lost, and an entry with property
`p` is found only where no other has what is looked for.
-/

namespace SearchPath

variable {α : Type} (p : α → Bool) (l : List α)

/-- The stable partition of a list, the entries with property `p` last. -/
def moveBehind : List α := l.filter (fun a => !p a) ++ l.filter p

theorem moveBehind_perm : (moveBehind p l).Perm l :=
  List.perm_append_comm.trans (List.filter_append_perm p l)

theorem filter_moveBehind : (moveBehind p l).filter p = l.filter p := by
  simp [moveBehind, List.filter_filter]

theorem filter_not_moveBehind :
    (moveBehind p l).filter (fun a => !p a) = l.filter fun a => !p a := by
  simp [moveBehind, List.filter_filter]

theorem moveBehind_idem : moveBehind p (moveBehind p l) = moveBehind p l := by
  rw [moveBehind, filter_moveBehind, filter_not_moveBehind, moveBehind]

/-- What is found without the entries that were moved is found with them, and
they are asked only where nothing else is found. -/
theorem find?_moveBehind (has : α → Bool) :
    (moveBehind p l).find? has =
      ((l.filter fun a => !p a).find? has).or ((l.filter p).find? has) :=
  List.find?_append

theorem find?_moveBehind_of_rest {has : α → Bool} {a : α}
    (h : (l.filter fun a => !p a).find? has = some a) : (moveBehind p l).find? has = some a := by
  rw [find?_moveBehind, h, Option.some_or]

/-- An entry that was moved is found only where no other has what is looked
for. -/
theorem rest_find?_eq_none {has : α → Bool} {a : α}
    (h : (moveBehind p l).find? has = some a) (ha : p a = true) :
    (l.filter fun a => !p a).find? has = none := by
  rw [find?_moveBehind] at h
  cases hrest : (l.filter fun a => !p a).find? has with
  | none => rfl
  | some b =>
      rw [hrest, Option.some_or] at h
      obtain rfl := Option.some.inj h
      have hb := (List.mem_filter.mp (List.mem_of_find?_eq_some hrest)).2
      simp [ha] at hb

end SearchPath
