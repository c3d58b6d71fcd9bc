import Mathlib.Data.String.Basic

/-!
# The generated validators of the Rust server

The validators of `EchoRequest` and `EchoResponse` are the same code over the
field `message`: they collect violations, take a runtime error out of them, and
return what is left. `validateMessage_eq_ok_iff` says which values they accept.
-/

namespace ConnectExamples

namespace Rust

/-- `protovalidate_buffa::FieldType`, the types that the validators mention. -/
inductive FieldType where
  | string
  | bool
  | message
  | uint64
  deriving DecidableEq, Repr

structure FieldPathElement where
  fieldNumber : Option ℤ
  fieldName : Option String
  fieldType : Option FieldType
  deriving DecidableEq, Repr

structure Violation where
  field : List FieldPathElement
  rule : List FieldPathElement
  ruleId : String
  message : String
  forKey : Bool
  deriving DecidableEq, Repr

structure ValidationError where
  violations : List Violation := []
  runtimeError : Option String := none
  deriving DecidableEq, Repr

def celRuntimeError : String := "__cel_runtime_error__"

def messageField : List FieldPathElement := [⟨some 1, some "message", some .string⟩]

def requiredViolation : Violation where
  field := messageField
  rule := [⟨some 25, some "required", some .bool⟩]
  ruleId := "required"
  message := "value is required"
  forKey := false

def minLenViolation : Violation where
  field := messageField
  rule := [⟨some 14, some "string", some .message⟩, ⟨some 2, some "min_len", some .uint64⟩]
  ruleId := "string.min_len"
  message := ""
  forKey := false

/-- The violations that the validators collect. -/
def violationsOf (message : Option String) : List Violation :=
  let violations := if message.isNone then [requiredViolation] else []
  match message with
  | none => violations
  | some v => if v.length < 1 then violations ++ [minLenViolation] else violations

/-- One round of the loop that looks for a runtime error. -/
def splitStep : Option Violation × List Violation → Violation →
    Option Violation × List Violation
  | (rt, rest), v =>
      if rt.isNone && v.ruleId == celRuntimeError then (some v, rest) else (rt, rest ++ [v])

/-- Take the first runtime error out of the violations. -/
def splitRuntimeError (violations : List Violation) : Option Violation × List Violation :=
  violations.foldl splitStep (none, [])

/-- The body that the generated validators share. -/
def validateMessage (message : Option String) : Except ValidationError Unit :=
  match splitRuntimeError (violationsOf message) with
  | (some v, _) => .error { runtimeError := some v.message }
  | (none, violations) =>
      if violations.isEmpty then .ok () else .error { violations := violations }

structure EchoRequest where
  message : Option String
  deriving DecidableEq, Repr

structure EchoResponse where
  message : Option String
  deriving DecidableEq, Repr

def EchoRequest.validate (self : EchoRequest) : Except ValidationError Unit :=
  validateMessage self.message

def EchoResponse.validate (self : EchoResponse) : Except ValidationError Unit :=
  validateMessage self.message

theorem foldl_splitStep (violations rest : List Violation)
    (h : ∀ v ∈ violations, v.ruleId ≠ celRuntimeError) :
    violations.foldl splitStep (none, rest) = (none, rest ++ violations) := by
  induction violations generalizing rest with
  | nil => simp
  | cons v vs ih =>
      have hv : (v.ruleId == celRuntimeError) = false := by
        simpa using h v List.mem_cons_self
      have tail := ih (rest ++ [v]) fun w hw => h w (List.mem_cons_of_mem v hw)
      simpa [splitStep, hv] using tail

/-- Without a runtime error among them, the violations stay as they are. -/
theorem splitRuntimeError_eq (violations : List Violation)
    (h : ∀ v ∈ violations, v.ruleId ≠ celRuntimeError) :
    splitRuntimeError violations = (none, violations) :=
  foldl_splitStep violations [] h

/-- Every violation names the field, and none is a runtime error. -/
theorem violationsOf_spec (message : Option String) :
    ∀ v ∈ violationsOf message, v.field = messageField ∧ v.ruleId ≠ celRuntimeError := by
  intro v hv
  have hcase : v = requiredViolation ∨ v = minLenViolation := by
    cases message with
    | none => exact .inl (by simpa [violationsOf] using hv)
    | some s =>
        by_cases hs : s.length < 1
        · exact .inr (by simpa [violationsOf, hs] using hv)
        · simp [violationsOf, hs] at hv
  rcases hcase with rfl | rfl
  · exact ⟨rfl, by decide⟩
  · exact ⟨rfl, by decide⟩

theorem violationsOf_eq_nil_iff (message : Option String) :
    violationsOf message = [] ↔ ∃ s, message = some s ∧ s ≠ "" := by
  cases message with
  | none => simp [violationsOf]
  | some s =>
      by_cases hs : s = ""
      · simp [violationsOf, hs]
      · have hlength : ¬ s.length < 1 := by
          simpa [String.length_eq_zero_iff] using hs
        simp [violationsOf, hs, hlength]

theorem validateMessage_eq (message : Option String) :
    validateMessage message =
      if violationsOf message = [] then .ok ()
      else .error { violations := violationsOf message } := by
  have hsplit := splitRuntimeError_eq (violationsOf message)
    fun v hv => (violationsOf_spec message v hv).2
  simp [validateMessage, hsplit]

/-- The validators accept the messages that are present and not empty. -/
theorem validateMessage_eq_ok_iff (message : Option String) :
    validateMessage message = .ok () ↔ ∃ s, message = some s ∧ s ≠ "" := by
  rw [validateMessage_eq, ← violationsOf_eq_nil_iff]
  by_cases h : violationsOf message = []
  · simp [h]
  · simp [h]

theorem EchoResponse.validate_eq_ok {message : String} (h : message ≠ "") :
    EchoResponse.validate ⟨some message⟩ = .ok () :=
  (validateMessage_eq_ok_iff (some message)).mpr ⟨message, rfl, h⟩

/-- A rejected message has violations, no runtime error, and every violation
names the field. -/
theorem validateMessage_error {message : Option String} {e : ValidationError}
    (h : validateMessage message = .error e) :
    e.runtimeError = none ∧ e.violations ≠ [] ∧
      ∀ v ∈ e.violations, v.field = messageField := by
  rw [validateMessage_eq] at h
  by_cases hnil : violationsOf message = []
  · simp [hnil] at h
  · rw [if_neg hnil] at h
    cases h
    exact ⟨rfl, hnil, fun v hv => (violationsOf_spec message v hv).1⟩

end Rust

end ConnectExamples
