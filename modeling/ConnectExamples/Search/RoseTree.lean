import Mathlib.Data.List.Basic

/-!
# First-match search in a labelled tree

A `RoseTree` carries a label on every node and any finite number of children.
`findSome?` is the depth-first search that visits a node before its children
and stops at the first hit, written as the recursion that a program runs; the
bridge `findSome?_eq_subtrees` reads it as a list search over the pre-order
enumeration `subtrees`, which is the form the proofs use. A search function
sees the whole subtree, so a test may look below the node it is applied to.
-/

namespace TreeSearch

inductive RoseTree (α : Type*) where
  | node (label : α) (children : List (RoseTree α))

namespace RoseTree

variable {α β : Type*}

def label : RoseTree α → α
  | node a _ => a

mutual

/-- Depth-first search, a node before its children, stopping at the first
hit. -/
def findSome? (f : RoseTree α → Option β) : RoseTree α → Option β
  | node a cs =>
      match f (node a cs) with
      | some b => some b
      | none => findSomeList? f cs

def findSomeList? (f : RoseTree α → Option β) : List (RoseTree α) → Option β
  | [] => none
  | t :: ts =>
      match findSome? f t with
      | some b => some b
      | none => findSomeList? f ts

end

mutual

/-- Every subtree, the tree itself first, in depth-first pre-order. -/
def subtrees : RoseTree α → List (RoseTree α)
  | node a cs => node a cs :: subtreesList cs

def subtreesList : List (RoseTree α) → List (RoseTree α)
  | [] => []
  | t :: ts => subtrees t ++ subtreesList ts

end

theorem subtrees_node (a : α) (cs : List (RoseTree α)) :
    subtrees (node a cs) = node a cs :: cs.flatMap subtrees := by
  have hlist : ∀ ts : List (RoseTree α), subtreesList ts = ts.flatMap subtrees := by
    intro ts
    induction ts with
    | nil => simp [subtreesList]
    | cons t ts ih => simp [subtreesList, ih]
  simp [subtrees, hlist]

@[simp] theorem self_mem_subtrees (t : RoseTree α) : t ∈ subtrees t := by
  cases t with
  | node a cs => simp [subtrees_node]

mutual

/-- The recursive search reads the pre-order enumeration from the left. -/
theorem findSome?_eq_subtrees (f : RoseTree α → Option β) :
    ∀ t : RoseTree α, findSome? f t = (subtrees t).findSome? f
  | node a cs => by
      have ih := findSomeList?_eq_subtreesList f cs
      simp only [findSome?, subtrees, List.findSome?_cons, ih]
      cases f (node a cs) <;> rfl

theorem findSomeList?_eq_subtreesList (f : RoseTree α → Option β) :
    ∀ ts : List (RoseTree α), findSomeList? f ts = (subtreesList ts).findSome? f
  | [] => rfl
  | t :: ts => by
      have iht := findSome?_eq_subtrees f t
      have ihts := findSomeList?_eq_subtreesList f ts
      simp only [findSomeList?, subtreesList, List.findSome?_append, iht, ihts]
      cases (subtrees t).findSome? f <;> rfl

end

theorem findSome?_isSome_iff (f : RoseTree α → Option β) (t : RoseTree α) :
    (findSome? f t).isSome ↔ ∃ u ∈ subtrees t, (f u).isSome := by
  rw [findSome?_eq_subtrees, List.isSome_findSome?, List.any_eq_true]

/-- A node whose label is no hit passes the search on to its children. -/
theorem findSome?_node_of_none (f : RoseTree α → Option β) (a : α) (cs : List (RoseTree α))
    (h : f (node a cs) = none) :
    findSome? f (node a cs) = cs.findSome? (findSome? f) := by
  have hlist : ∀ ts : List (RoseTree α), findSomeList? f ts = ts.findSome? (findSome? f) := by
    intro ts
    induction ts with
    | nil => rfl
    | cons t ts ih =>
        simp only [findSomeList?, List.findSome?_cons, ih]
        cases findSome? f t <;> rfl
  simp only [findSome?, h, hlist]

/-- Whether some node passes the test, by the same search. -/
def any (p : RoseTree α → Bool) (t : RoseTree α) : Bool :=
  (findSome? (fun u => if p u then some u else none) t).isSome

theorem any_eq_true_iff (p : RoseTree α → Bool) (t : RoseTree α) :
    any p t = true ↔ ∃ u ∈ subtrees t, p u = true := by
  unfold any
  rw [findSome?_isSome_iff]
  constructor
  · rintro ⟨u, hu, hp⟩
    refine ⟨u, hu, ?_⟩
    by_contra hne
    simp [hne] at hp
  · rintro ⟨u, hu, hp⟩
    exact ⟨u, hu, by simp [hp]⟩

end RoseTree

end TreeSearch
