import ConnectExamples.Go.Retryable

/-!
# What the Go client retries of joined errors

`errors.Join` and wrappers without a type of their own are looked through: of what they
hold, `isRetryable` sees the first Connect error and the first `net.Error`, and any
context error or `*net.OpError`. So nested joins are flat, a join is retried only if one of
its errors is, and what the first error asks for is only withdrawn by a context error.
-/

namespace ConnectExamples

namespace Go

open TreeSearch

variable {P : Type}

/-- The node has no type that the client asks for, and is no context error. -/
structure Silent (n : ErrorNode P) : Prop where
  plain : n.kind = .plain
  matches_eq : ∀ target, target = .canceled ∨ target = .deadlineExceeded → n.matches target = false

theorem silent_join (address : ℕ) :
    Silent (⟨.other address, .plain, fun _ => false⟩ : ErrorNode P) where
  plain := rfl
  matches_eq target htarget := by rcases htarget with rfl | rfl <;> rfl

/-- The verdict of `isRetryable` on what an error holds that shows nothing itself. -/
def heldRetryable (errs : List (Error P)) : Bool :=
  !errs.any matchesContext &&
    (codeRetryable (match errs.findSome? (errorsAsType asConnectError) with
        | some (code, _) => code
        | none => codeUnknown) ||
      (match errs.findSome? (errorsAsType asNetError) with
        | some netErr => timeout netErr
        | none => false) ||
      errs.any hasOpError)

section Node

variable {n : ErrorNode P} (hn : Silent n) (errs : List (Error P))

include hn

theorem errorsAsType_node {β : Type} (cast : Error P → Option β)
    (hcast : ∀ m cs, m.kind = .plain → cast (.node m cs) = none) :
    errorsAsType cast (.node n errs) = errs.findSome? (errorsAsType cast) :=
  RoseTree.findSome?_node_of_none cast n errs (hcast n errs hn.plain)

theorem asConnectError_node :
    errorsAsType asConnectError (.node n errs) = errs.findSome? (errorsAsType asConnectError) :=
  errorsAsType_node hn errs _ fun m cs hm => by simp [asConnectError, RoseTree.label, hm]

theorem asNetError_node :
    errorsAsType asNetError (.node n errs) = errs.findSome? (errorsAsType asNetError) :=
  errorsAsType_node hn errs _ fun m cs hm => by simp [asNetError, RoseTree.label, hm]

theorem hasOpError_node : hasOpError (.node n errs) = errs.any hasOpError := by
  have hsearch := errorsAsType_node hn errs asOpError
    fun m cs hm => by simp [asOpError, RoseTree.label, hm]
  rw [hasOpError, hsearch, List.isSome_findSome?]
  rfl

theorem matchesContext_node : matchesContext (.node n errs) = errs.any matchesContext := by
  rw [Bool.eq_iff_iff, matchesContext, Bool.or_eq_true, errorsIs_node, errorsIs_node,
    hn.matches_eq _ (.inl rfl), hn.matches_eq _ (.inr rfl)]
  simp only [Bool.false_eq_true, false_or, List.any_eq_true, matchesContext, Bool.or_eq_true]
  constructor
  · rintro (⟨c, hc, h⟩ | ⟨c, hc, h⟩)
    · exact ⟨c, hc, .inl h⟩
    · exact ⟨c, hc, .inr h⟩
  · rintro ⟨c, hc, h | h⟩
    · exact .inl ⟨c, hc, h⟩
    · exact .inr ⟨c, hc, h⟩

theorem isRetryable_node : isRetryable (some (.node n errs)) = heldRetryable errs := by
  have hverdict := isRetryable_eq (.node n errs)
  rw [matchesContext_node hn, hasOpError_node hn, codeOf, firstNetErrorTimesOut,
    asConnectError_node hn, asNetError_node hn] at hverdict
  exact hverdict

end Node

section Held

theorem heldRetryable_singleton (e : Error P) : heldRetryable [e] = isRetryable (some e) := by
  rw [isRetryable_eq, heldRetryable, codeOf, firstNetErrorTimesOut]
  simp only [List.any_cons, List.any_nil, Bool.or_false, List.findSome?_cons, List.findSome?_nil]
  cases errorsAsType asConnectError e <;> cases errorsAsType asNetError e <;> rfl

/-- What a silent node holds may stand in its place. -/
theorem heldRetryable_flat {n : ErrorNode P} (hn : Silent n) (xs ys zs : List (Error P)) :
    heldRetryable (xs ++ .node n ys :: zs) = heldRetryable (xs ++ ys ++ zs) := by
  have hfind {β : Type} {f : Error P → Option β} (hf : f (.node n ys) = ys.findSome? f) :
      (xs ++ .node n ys :: zs).findSome? f = (xs ++ ys ++ zs).findSome? f := by
    simp only [List.findSome?_append, List.findSome?_cons, hf, Option.or_assoc]
    cases ys.findSome? f <;> rfl
  rw [heldRetryable, heldRetryable, hfind (asConnectError_node hn ys),
    hfind (asNetError_node hn ys)]
  simp only [List.any_append, List.any_cons, matchesContext_node hn, hasOpError_node hn,
    Bool.or_assoc]

theorem exists_of_heldRetryable {errs : List (Error P)} (h : heldRetryable errs = true) :
    (∀ e ∈ errs, matchesContext e = false) ∧ ∃ e ∈ errs, isRetryable (some e) = true := by
  rw [heldRetryable, Bool.and_eq_true, Bool.not_eq_true', List.any_eq_false] at h
  obtain ⟨hcontext, hasks⟩ := h
  have hcontext : ∀ e ∈ errs, matchesContext e = false := fun e he => by simpa using hcontext e he
  refine ⟨hcontext, ?_⟩
  simp only [Bool.or_eq_true, List.any_eq_true, or_assoc] at hasks
  rcases hasks with hcode | hnet | ⟨e, he, hop⟩
  · cases hfirst : errs.findSome? (errorsAsType asConnectError) with
    | none =>
        rw [hfirst] at hcode
        cases hcode
    | some connectErr =>
        rw [hfirst] at hcode
        obtain ⟨e, he, hsome⟩ := List.exists_of_findSome?_eq_some hfirst
        refine ⟨e, he, (isRetryable_iff e).mpr ⟨hcontext e he, .inl ?_⟩⟩
        rw [codeOf, hsome]
        exact hcode
  · cases hfirst : errs.findSome? (errorsAsType asNetError) with
    | none =>
        rw [hfirst] at hnet
        cases hnet
    | some netErr =>
        rw [hfirst] at hnet
        obtain ⟨e, he, hsome⟩ := List.exists_of_findSome?_eq_some hfirst
        refine ⟨e, he, (isRetryable_iff e).mpr ⟨hcontext e he, .inr (.inl ?_)⟩⟩
        rw [firstNetErrorTimesOut, hsome]
        exact hnet
  · exact ⟨e, he, (isRetryable_iff e).mpr ⟨hcontext e he, .inr (.inr hop)⟩⟩

/-- The first error is heard. -/
theorem heldRetryable_cons {e : Error P} {errs : List (Error P)}
    (he : isRetryable (some e) = true) (hcontext : ∀ d ∈ errs, matchesContext d = false) :
    heldRetryable (e :: errs) = true := by
  obtain ⟨hfirst, hasks⟩ := (isRetryable_iff e).mp he
  have hnone : (e :: errs).any matchesContext = false := by
    rw [List.any_eq_false]
    intro d hd
    rcases List.mem_cons.mp hd with rfl | hd
    · simp [hfirst]
    · simp [hcontext d hd]
  rw [heldRetryable, hnone, Bool.not_false, Bool.true_and]
  simp only [Bool.or_eq_true, or_assoc]
  rcases hasks with hcode | hnet | hop
  · left
    rw [codeOf] at hcode
    cases hconnect : errorsAsType asConnectError e with
    | none =>
        rw [hconnect] at hcode
        cases hcode
    | some connectErr =>
        rw [hconnect] at hcode
        rw [List.findSome?_cons, hconnect]
        exact hcode
  · right
    left
    rw [firstNetErrorTimesOut] at hnet
    cases hnetErr : errorsAsType asNetError e with
    | none =>
        rw [hnetErr] at hnet
        cases hnet
    | some netErr =>
        rw [hnetErr] at hnet
        rw [List.findSome?_cons, hnetErr]
        exact hnet
  · right
    right
    simp [hop]

end Held

section Join

theorem isRetryable_errorsJoin (address : ℕ) (errs : List (Option (Error P))) :
    isRetryable (errorsJoin address errs) = heldRetryable (errs.filterMap id) := by
  rw [errorsJoin]
  cases errs.filterMap id with
  | nil => rfl
  | cons e es => exact isRetryable_node (silent_join address) (e :: es)

theorem filterMap_errorsJoin (address : ℕ) (xs ys zs : List (Option (Error P))) :
    heldRetryable ((xs ++ errorsJoin address ys :: zs).filterMap id) =
      heldRetryable ((xs ++ ys ++ zs).filterMap id) := by
  cases hys : ys.filterMap id with
  | nil =>
      have hjoin : errorsJoin address ys = none := by rw [errorsJoin, hys]
      rw [hjoin, List.filterMap_append, List.filterMap_append, List.filterMap_append, hys,
        List.append_nil]
      rfl
  | cons e es =>
      have hjoin : errorsJoin address ys =
          some (.node ⟨.other address, .plain, fun _ => false⟩ (e :: es)) := by
        rw [errorsJoin, hys]
      rw [hjoin, List.filterMap_append, List.filterMap_append, List.filterMap_append, hys]
      exact heldRetryable_flat (silent_join address) _ (e :: es) _

/-- Joining and wrapping, as `isRetryable` sees them. A silent wrapper and a join of one
error change nothing, and a join inside a join may be written out. A join is retried only if
one of its errors is and none matches a context error; and if the first error is retried,
only a context error in the rest withdraws that. -/
theorem joins_retried :
    (∀ (n : ErrorNode P) e, Silent n → isRetryable (some (.node n [e])) = isRetryable (some e)) ∧
      (∀ address (err : Option (Error P)),
        isRetryable (errorsJoin address [err]) = isRetryable err) ∧
      (∀ outer inner (xs ys zs : List (Option (Error P))),
        isRetryable (errorsJoin outer (xs ++ errorsJoin inner ys :: zs)) =
          isRetryable (errorsJoin outer (xs ++ ys ++ zs))) ∧
      (∀ address (errs : List (Option (Error P))), isRetryable (errorsJoin address errs) = true →
        (∀ e, some e ∈ errs → matchesContext e = false) ∧
          ∃ err ∈ errs, isRetryable err = true) ∧
      ∀ address err (errs : List (Option (Error P))), isRetryable err = true →
        (∀ e, some e ∈ errs → matchesContext e = false) →
          isRetryable (errorsJoin address (err :: errs)) = true := by
  refine ⟨fun n e hn => ?_, fun address err => ?_, fun outer inner xs ys zs => ?_,
    fun address errs h => ?_, fun address err errs herr hcontext => ?_⟩
  · rw [isRetryable_node hn, heldRetryable_singleton]
  · rw [isRetryable_errorsJoin]
    cases err with
    | none => rfl
    | some e => exact heldRetryable_singleton e
  · rw [isRetryable_errorsJoin, isRetryable_errorsJoin, filterMap_errorsJoin]
  · rw [isRetryable_errorsJoin] at h
    obtain ⟨hcontext, e, he, hretry⟩ := exists_of_heldRetryable h
    have hmem (e : Error P) : e ∈ errs.filterMap id ↔ some e ∈ errs := by simp
    exact ⟨fun e he => hcontext e ((hmem e).mpr he), some e, (hmem e).mp he, hretry⟩
  · rw [isRetryable_errorsJoin]
    cases err with
    | none => cases herr
    | some e =>
        refine heldRetryable_cons herr fun d hd => hcontext d ?_
        simpa using hd

/-- A refused connection that is joined with an error that says nothing. -/
theorem joins_retried_refused :
    isRetryable (errorsJoin 7 [some connectionRefused, none, some errRetryAborted]) = true := by
  obtain ⟨-, -, -, -, hfirst⟩ := joins_retried (P := Unit)
  refine hfirst 7 (some connectionRefused) [none, some errRetryAborted] (by decide) fun e he => ?_
  simp only [List.mem_cons, reduceCtorEq, Option.some.injEq, List.not_mem_nil, or_false,
    false_or] at he
  subst he
  decide

/-- The order of a join matters: only the first Connect error is heard. -/
example :
    let connectError (code : Code) : Error Unit :=
      .node ⟨.other 0, .connectError code (), fun _ => false⟩ []
    let unavailable := connectError codeUnavailable
    let invalid := connectError codeInvalidArgument
    isRetryable (errorsJoin 1 [some unavailable, some invalid]) = true ∧
      isRetryable (errorsJoin 1 [some invalid, some unavailable]) = false := by
  decide

end Join

end Go

end ConnectExamples
