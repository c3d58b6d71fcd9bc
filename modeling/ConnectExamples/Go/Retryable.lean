import ConnectExamples.Go.Error

/-!
# Which errors the Go client retries

`isRetryable` makes five searches through the error tree and combines their
answers by falling through. `isRetryable_iff` states the combination once: no
node is or declares itself a context error, and the Connect code, the first
`net.Error`, or some `*net.OpError` asks for another attempt. From it follow when
the verdict on a definitive Connect error is accepted
(`isRetryable_eq_false_iff_of_definitive`) and which transient failures are
retried (`isRetryable_transient_iff`).
-/

namespace ConnectExamples

namespace Go

open TreeSearch

variable {P : Type}

def codeRetryable (code : Code) : Bool :=
  code == codeUnavailable || code == codeResourceExhausted

def isRetryable : Option (Error P) → Bool
  | none => false
  | some err =>
      if errorsIs err .canceled || errorsIs err .deadlineExceeded then
        false
      else
        let code := codeOf err
        if code == codeUnavailable || code == codeResourceExhausted then
          true
        else
          -- non-Connect transport failures
          match errorsAsType asNetError err with
          | some netErr =>
              if timeout netErr then true else (errorsAsType asOpError err).isSome
          | none => (errorsAsType asOpError err).isSome

/-- Some node is, or declares itself by its own `Is` method to be, one of the
two context errors. -/
def matchesContext (err : Error P) : Bool :=
  errorsIs err .canceled || errorsIs err .deadlineExceeded

/-- The first `net.Error` of the tree in pre-order reports a timeout. -/
def firstNetErrorTimesOut (err : Error P) : Bool :=
  match errorsAsType asNetError err with
  | some netErr => timeout netErr
  | none => false

def hasOpError (err : Error P) : Bool := (errorsAsType asOpError err).isSome

/-- The verdict of `isRetryable`, with the three searches that can ask for
another attempt side by side. -/
theorem isRetryable_eq (err : Error P) :
    isRetryable (some err) =
      (!matchesContext err &&
        (codeRetryable (codeOf err) || firstNetErrorTimesOut err || hasOpError err)) := by
  change (if matchesContext err then false
    else if codeRetryable (codeOf err) then true
    else match errorsAsType asNetError err with
      | some netErr => if timeout netErr then true else hasOpError err
      | none => hasOpError err) = _
  unfold firstNetErrorTimesOut
  cases matchesContext err with
  | true => rfl
  | false =>
      cases codeRetryable (codeOf err) with
      | true => rfl
      | false =>
          cases errorsAsType asNetError err with
          | none => simp
          | some netErr => cases timeout netErr <;> simp

theorem isRetryable_iff (err : Error P) :
    isRetryable (some err) = true ↔
      matchesContext err = false ∧
        (codeRetryable (codeOf err) = true ∨ firstNetErrorTimesOut err = true ∨
          hasOpError err = true) := by
  simp [isRetryable_eq, or_assoc]

theorem isRetryable_of_matchesContext {err : Error P} (h : matchesContext err = true) :
    isRetryable (some err) = false := by
  simp [isRetryable_eq, h]

theorem matchesContext_iff (err : Error P) :
    matchesContext err = true ↔
      ∃ e ∈ err.subtrees, e.label.matches .canceled = true ∨
        e.label.matches .deadlineExceeded = true := by
  simp only [matchesContext, Bool.or_eq_true, errorsIs_iff, ← exists_or, ← and_or_left]

theorem hasOpError_iff (err : Error P) :
    hasOpError err = true ↔ ∃ e ∈ err.subtrees, (asOpError e).isSome :=
  RoseTree.findSome?_isSome_iff asOpError err

/-! ## Definitive Connect errors -/

/-- The tree contains a `*connect.Error`, and the code that `connect.CodeOf`
reads from it is definitive. -/
def Definitive (err : Error P) : Prop :=
  (errorsAsType asConnectError err).isSome ∧ codeRetryable (codeOf err) = false

/-- What a definitive error must look like for the client to accept its
verdict: some node is or declares itself a context error, or no network test
applies to what the error wraps. -/
def NoNetworkCause (err : Error P) : Prop :=
  matchesContext err = true ∨
    (hasOpError err = false ∧ firstNetErrorTimesOut err = false)

theorem isRetryable_eq_false_iff_of_definitive {err : Error P} (h : Definitive err) :
    isRetryable (some err) = false ↔ NoNetworkCause err := by
  rw [isRetryable_eq, h.2]
  unfold NoNetworkCause
  cases matchesContext err <;> cases firstNetErrorTimesOut err <;>
    cases hasOpError err <;> simp

/-! ## Transient failures -/

/-- Neither of the two context errors occurs as a value in the tree. -/
def NoContextValue (err : Error P) : Prop :=
  ∀ e ∈ err.subtrees, e.label.value ≠ .canceled ∧ e.label.value ≠ .deadlineExceeded

/-- The failures that count as transient: the Connect error that
`connect.CodeOf` reads has a retryable code, or there is no Connect error and
the tree contains an `*net.OpError` or a `net.Error` that timed out. -/
def Transient (err : Error P) : Prop :=
  (∃ code payload, errorsAsType asConnectError err = some (code, payload) ∧
      codeRetryable code = true) ∨
    (errorsAsType asConnectError err = none ∧
      ∃ e ∈ err.subtrees, (asOpError e).isSome ∨
        ((asNetError e).isSome ∧ timeout e = true))

/-- No node declares itself equal to a context error by its own `Is` method. -/
def NoContextMethod (err : Error P) : Prop :=
  ∀ e ∈ err.subtrees, e.label.isMethod .canceled = false ∧
    e.label.isMethod .deadlineExceeded = false

/-- The first `net.Error` in pre-order is no timeout, and neither a Connect
error nor an `*net.OpError` speaks for another attempt: a timeout further down
the tree goes unseen. -/
def HiddenTimeout (err : Error P) : Prop :=
  errorsAsType asConnectError err = none ∧ hasOpError err = false ∧
    ∃ netErr, errorsAsType asNetError err = some netErr ∧ timeout netErr = false

theorem matchesContext_eq_false_iff {err : Error P} (h : NoContextValue err) :
    matchesContext err = false ↔ NoContextMethod err := by
  rw [← Bool.not_eq_true, matchesContext_iff]
  unfold NoContextMethod
  push Not
  refine forall₂_congr fun e he => ?_
  obtain ⟨hcanceled, hdeadline⟩ := h e he
  simp [ErrorNode.matches, ErrorValue.comparable, hcanceled, hdeadline]

theorem codeRetryable_of_none {err : Error P}
    (h : errorsAsType asConnectError err = none) :
    codeRetryable (codeOf err) = false := by
  unfold codeOf
  rw [h]
  rfl

/-- In a transient failure one of the three searches asks for another attempt,
unless the timeout is hidden. -/
theorem transient_verdict {err : Error P} (h : Transient err) :
    (codeRetryable (codeOf err) = true ∨ firstNetErrorTimesOut err = true ∨
      hasOpError err = true) ↔ ¬ HiddenTimeout err := by
  rcases h with ⟨code, payload, hconnect, hcode⟩ | ⟨hnone, e, he, hop | ⟨hnet, htimeout⟩⟩
  · have hretry : codeRetryable (codeOf err) = true := by
      unfold codeOf
      rw [hconnect]
      exact hcode
    simp [HiddenTimeout, hretry, hconnect]
  · have hhas : hasOpError err = true := (hasOpError_iff err).mpr ⟨e, he, hop⟩
    simp [HiddenTimeout, hhas]
  · obtain ⟨netErr, hfirst⟩ := Option.isSome_iff_exists.mp
      ((RoseTree.findSome?_isSome_iff asNetError err).mpr ⟨e, he, hnet⟩)
    have hfirst : errorsAsType asNetError err = some netErr := hfirst
    rw [codeRetryable_of_none hnone]
    unfold HiddenTimeout firstNetErrorTimesOut
    rw [hnone, hfirst]
    cases timeout netErr <;> cases hasOpError err <;> simp

/-- A transient failure without a context error in it is retried exactly when
no node declares itself a context error and the timeout is not hidden. -/
theorem isRetryable_transient_iff (err : Error P) (hctx : NoContextValue err)
    (htransient : Transient err) :
    isRetryable (some err) = true ↔ NoContextMethod err ∧ ¬ HiddenTimeout err := by
  rw [isRetryable_iff, matchesContext_eq_false_iff hctx, transient_verdict htransient]

def connectionRefused : Error Unit :=
  .node ⟨.other 0, .opError, fun _ => false⟩
    [.node ⟨.other 1, .plain, fun _ => false⟩ []]

/-- A refused connection holds no context error and is transient, so the
condition of `isRetryable_transient_iff` says what becomes of it. -/
theorem connectionRefused_retried :
    NoContextMethod connectionRefused ∧ ¬ HiddenTimeout connectionRefused :=
  (isRetryable_transient_iff connectionRefused (by unfold NoContextValue; decide)
    (.inr ⟨rfl, connectionRefused, RoseTree.self_mem_subtrees _, .inl rfl⟩)).mp (by decide)

/-- A dial that timed out: the timeout error of `net` declares itself equal to
`context.DeadlineExceeded`. -/
def dialTimeout : Error Unit :=
  .node ⟨.other 0, .opError, fun _ => false⟩
    [.node ⟨.other 1, .netError true, fun target => target == .deadlineExceeded⟩ []]

/-- A timeout that comes second in a join, after a `net.Error` that is none. -/
def secondTimeout : Error Unit :=
  .node ⟨.other 0, .plain, fun _ => false⟩
    [.node ⟨.other 1, .netError false, fun _ => false⟩ [],
      .node ⟨.other 2, .netError true, fun _ => false⟩ []]

/-- Both are transient without a context error in them, and neither is
retried. -/
theorem transient_not_retried :
    (NoContextValue dialTimeout ∧ Transient dialTimeout ∧
        isRetryable (some dialTimeout) = false) ∧
      (NoContextValue secondTimeout ∧ Transient secondTimeout ∧
        isRetryable (some secondTimeout) = false) := by
  constructor
  · have htransient : Transient dialTimeout :=
      .inr ⟨rfl, dialTimeout, RoseTree.self_mem_subtrees _, .inl rfl⟩
    exact ⟨by unfold NoContextValue; decide, htransient, by decide⟩
  · have htransient : Transient secondTimeout := by
      refine .inr ⟨rfl, .node ⟨.other 2, .netError true, fun _ => false⟩ [], ?_, ?_⟩
      · simp [secondTimeout, RoseTree.subtrees_node]
      · exact .inr ⟨rfl, rfl⟩
    exact ⟨by unfold NoContextValue; decide, htransient, by decide⟩

end Go

end ConnectExamples
