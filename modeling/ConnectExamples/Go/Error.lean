import ConnectExamples.Connect.Code
import ConnectExamples.Search.RoseTree

/-!
# Go error values

An error value is a finite tree: a node is a value with a dynamic type, its
children are what `Unwrap() error` or `Unwrap() []error` returns, in order. Of
a value the client reads its identity (`==`), its own `Is` method, and what the
type assertions in `errors.As` and `Timeout()` see. The library functions
`errors.Is`, `errors.AsType` and `connect.CodeOf` are depth-first searches over
this tree, a node before what it wraps.
-/

namespace ConnectExamples

namespace Go

open TreeSearch

abbrev Code := UInt32

def codeUnknown : Code := 2

def codeInvalidArgument : Code := 3

def codeResourceExhausted : Code := 8

def codeUnavailable : Code := 14

/-- The identity of an error value, as `==` on interfaces sees it: the three
sentinels that the client mentions, any other comparable value, and a value
whose type is not comparable. -/
inductive ErrorValue where
  | canceled
  | deadlineExceeded
  | retryAborted
  | other (address : ℕ)
  | incomparable (address : ℕ)
  deriving DecidableEq, Repr

def ErrorValue.comparable : ErrorValue → Bool
  | .incomparable _ => false
  | _ => true

/-- The dynamic type of an error value, as far as the type assertions of the
client and of `Timeout()` distinguish them. `netError` is any type of its own
that implements `net.Error`, `timeouter` one that has a `Timeout()` method and
is no `net.Error`. -/
inductive ErrorKind (P : Type) where
  | plain
  | connectError (code : Code) (payload : P)
  | opError
  | urlError
  | syscallError
  | netError (timeout : Bool)
  | timeouter (timeout : Bool)
  deriving DecidableEq

/-- A node of an error tree: its identity, its type, and its own method
`Is(error) bool`, constantly false for a type that has none. -/
structure ErrorNode (P : Type) where
  value : ErrorValue
  kind : ErrorKind P
  isMethod : ErrorValue → Bool := fun _ => false

/-- An error value with everything it wraps. -/
abbrev Error (P : Type) := RoseTree (ErrorNode P)

/-- The response and the error of a unary call; either may be nil. -/
abbrev Result (α P : Type) := Option α × Option (Error P)

variable {P : Type}

def canceled : Error P := .node ⟨.canceled, .plain, fun _ => false⟩ []

def deadlineExceeded : Error P :=
  .node ⟨.deadlineExceeded, .netError true, fun _ => false⟩ []

def errRetryAborted : Error P := .node ⟨.retryAborted, .plain, fun _ => false⟩ []

/-- Whether one node matches the target of `errors.Is`. -/
def ErrorNode.matches (n : ErrorNode P) (target : ErrorValue) : Bool :=
  (target.comparable && n.value == target) || n.isMethod target

def errorsIs (err : Error P) (target : ErrorValue) : Bool :=
  err.any fun e => e.label.matches target

/-- The assertion to `*connect.Error`, with what the client reads of it. -/
def asConnectError (err : Error P) : Option (Code × P) :=
  match err.label.kind with
  | .connectError code payload => some (code, payload)
  | _ => none

def asOpError (err : Error P) : Option (Error P) :=
  match err.label.kind with
  | .opError => some err
  | _ => none

def asNetError (err : Error P) : Option (Error P) :=
  match err.label.kind with
  | .opError | .urlError | .netError _ => some err
  | _ => none

/-- `errors.AsType`: the first node in pre-order that the assertion accepts. -/
def errorsAsType {β : Type} (cast : Error P → Option β) (err : Error P) : Option β :=
  err.findSome? cast

def codeOf (err : Error P) : Code :=
  match errorsAsType asConnectError err with
  | some (code, _) => code
  | none => codeUnknown

mutual

/-- The method `Timeout() bool`, false for a type that has none. The types of
the standard library that wrap an error ask their immediate cause. -/
def timeout : Error P → Bool
  | .node n causes =>
      match n.kind with
      | .netError answer | .timeouter answer => answer
      | .opError | .urlError | .syscallError => timeoutOfCause causes
      | .plain | .connectError _ _ => false

def timeoutOfCause : List (Error P) → Bool
  | [] => false
  | cause :: _ => timeout cause

end

/-- `errors.Join`: the joined value is freshly allocated and keeps the errors
that are not nil, in order; there is none without such an error. -/
def errorsJoin (address : ℕ) (errs : List (Option (Error P))) : Option (Error P) :=
  match errs.filterMap id with
  | [] => none
  | e :: es => some (.node ⟨.other address, .plain, fun _ => false⟩ (e :: es))

theorem errorsIs_iff (err : Error P) (target : ErrorValue) :
    errorsIs err target = true ↔
      ∃ e ∈ err.subtrees, e.label.matches target = true :=
  RoseTree.any_eq_true_iff _ err

theorem errorsIs_node (n : ErrorNode P) (causes : List (Error P)) (target : ErrorValue) :
    errorsIs (.node n causes) target = true ↔
      n.matches target = true ∨ ∃ c ∈ causes, errorsIs c target = true := by
  simp only [errorsIs_iff, RoseTree.subtrees_node, List.mem_cons, List.mem_flatMap]
  constructor
  · rintro ⟨e, rfl | ⟨c, hc, he⟩, hmatch⟩
    · exact .inl hmatch
    · exact .inr ⟨c, hc, e, he, hmatch⟩
  · rintro (hmatch | ⟨c, hc, e, he, hmatch⟩)
    · exact ⟨_, .inl rfl, hmatch⟩
    · exact ⟨e, .inr ⟨c, hc, he⟩, hmatch⟩

theorem errorsAsType_join {β : Type} (cast : Error P → Option β) (address : ℕ)
    (errs : List (Error P))
    (h : cast (.node ⟨.other address, .plain, fun _ => false⟩ errs) = none) :
    errorsAsType cast (.node ⟨.other address, .plain, fun _ => false⟩ errs) =
      errs.findSome? (errorsAsType cast) :=
  RoseTree.findSome?_node_of_none cast _ errs h

end Go

/-- An outcome as Go code sees it; the error value sits at an address. -/
def Outcome.toGo {α P : Type} (address : P → ℕ) : Outcome α P → Go.Result α P
  | .ok value => (some value, none)
  | .error (code, payload) =>
      (none, some (.node
        ⟨.other (address payload), .connectError code.number payload, fun _ => false⟩ []))

end ConnectExamples
