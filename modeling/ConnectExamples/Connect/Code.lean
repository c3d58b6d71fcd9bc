import Mathlib.Data.UInt

/-!
# Connect error codes

The sixteen codes of the Connect protocol, with the numbers that
`connect.Code` gives them in Go. `Code` is the closed enumeration of the Rust
crate and of the Python package; the Go type is an open `uint32`, so a Go code
is compared with a `Code` through `Code.number`. An `Outcome` is what a remote
call ends with, before a language gives it a form.
-/

namespace ConnectExamples

inductive Code where
  | canceled
  | unknown
  | invalidArgument
  | deadlineExceeded
  | notFound
  | alreadyExists
  | permissionDenied
  | resourceExhausted
  | failedPrecondition
  | aborted
  | outOfRange
  | unimplemented
  | internal
  | unavailable
  | dataLoss
  | unauthenticated
  deriving DecidableEq, Repr

/-- The number of a code in the Go package. -/
def Code.number : Code → UInt32
  | .canceled => 1
  | .unknown => 2
  | .invalidArgument => 3
  | .deadlineExceeded => 4
  | .notFound => 5
  | .alreadyExists => 6
  | .permissionDenied => 7
  | .resourceExhausted => 8
  | .failedPrecondition => 9
  | .aborted => 10
  | .outOfRange => 11
  | .unimplemented => 12
  | .internal => 13
  | .unavailable => 14
  | .dataLoss => 15
  | .unauthenticated => 16

theorem Code.number_injective : Function.Injective Code.number := by
  intro a b h
  cases a <;> cases b <;> first | rfl | exact absurd h (by decide)

@[simp] theorem Code.number_inj {a b : Code} : a.number = b.number ↔ a = b :=
  Code.number_injective.eq_iff

/-- How a call ends: with a value, or with a Connect error that wraps nothing. -/
abbrev Outcome (α P : Type) := Except (Code × P) α

end ConnectExamples
