import ConnectExamples.Connect.Code
import Mathlib.Data.String.Basic

/-!
# What the Echo servers are for

A server answers Echo requests and serves the health service. `answer` is the
reply that a request deserves, and `logged` the lines that it leaves in the
request log: a message is greeted unless it is absent or empty, every Echo
request is logged, and no health probe is.
-/

namespace ConnectExamples

/-- A decoded unary request: to `Echo`, with its message if there is one, or to
a method of the health service, with what that method makes of it. -/
inductive Request (H P : Type) where
  | echo (message : Option String)
  | health (method : String) (outcome : Outcome H P)

/-- A reply: the message of an `EchoResponse`, or a reply of the health
service. -/
inductive Response (H : Type) where
  | echo (message : Option String)
  | health (value : H)
  deriving DecidableEq

inductive Level where
  | info
  | error
  deriving DecidableEq, Repr

/-- What two logs can be compared by: a procedure, a level, and the number of
an error code. -/
structure LogLine where
  procedure : String
  level : Level
  code : Option UInt32
  deriving DecidableEq

/-- Where a server runs: a clock in nanoseconds, and what the work of a handler
does to the state. -/
structure Machine (σ : Type) where
  now : σ → ℕ
  work : σ → σ

namespace Request

variable {H P : Type}

def service : Request H P → String
  | .echo _ => "api.v1.EchoService"
  | .health _ _ => "grpc.health.v1.Health"

def method : Request H P → String
  | .echo _ => "Echo"
  | .health method _ => method

def path (r : Request H P) : String := "/" ++ r.service ++ "/" ++ r.method

/-- The reply that a request deserves. -/
def answer : Request H P → Except Code (Response H)
  | .echo none => .error .invalidArgument
  | .echo (some m) =>
      if m = "" then .error .invalidArgument
      else .ok (.echo (some ("Hello, " ++ m ++ "!")))
  | .health _ (.ok value) => .ok (.health value)
  | .health _ (.error (code, _)) => .error code

/-- The lines that a request leaves in the request log. -/
def logged : Request H P → List LogLine
  | .echo none => [⟨"/api.v1.EchoService/Echo", .error, some Code.invalidArgument.number⟩]
  | .echo (some m) =>
      if m = "" then
        [⟨"/api.v1.EchoService/Echo", .error, some Code.invalidArgument.number⟩]
      else [⟨"/api.v1.EchoService/Echo", .info, none⟩]
  | .health _ _ => []

theorem path_echo (message : Option String) :
    path (.echo message : Request H P) = "/api.v1.EchoService/Echo" := by
  change "/" ++ "api.v1.EchoService" ++ "/" ++ "Echo" = "/api.v1.EchoService/Echo"
  decide

theorem answer_echo_eq_error_iff (message : Option String) :
    (answer (.echo message : Request H P) = .error .invalidArgument) ↔
      message = none ∨ message = some "" := by
  cases message with
  | none => simp [answer]
  | some m => by_cases h : m = "" <;> simp [answer, h]

theorem answer_echo_of_ne {m : String} (h : m ≠ "") :
    answer (.echo (some m) : Request H P) = .ok (.echo (some ("Hello, " ++ m ++ "!"))) := by
  simp [answer, h]

theorem greeting_injective : Function.Injective fun m : String => "Hello, " ++ m ++ "!" := by
  intro m m' h
  have hlist := congrArg String.toList h
  simp only [String.toList_append, List.append_assoc] at hlist
  exact String.toList_injective (List.append_cancel_right (List.append_cancel_left hlist))

/-- Accepted messages are told apart by their answers. -/
theorem answer_echo_injective {m m' : String} (hm : m ≠ "") (hm' : m' ≠ "")
    (h : answer (.echo (some m) : Request H P) = answer (.echo (some m') : Request H P)) :
    m = m' := by
  rw [answer_echo_of_ne hm, answer_echo_of_ne hm'] at h
  simp only [Except.ok.injEq, Response.echo.injEq, Option.some.injEq] at h
  exact greeting_injective h

/-- An Echo request leaves one line, at error level exactly when it is
rejected. -/
theorem logged_echo (message : Option String) :
    logged (.echo message : Request H P) =
      [if message = none ∨ message = some "" then
          ⟨"/api.v1.EchoService/Echo", .error, some Code.invalidArgument.number⟩
        else ⟨"/api.v1.EchoService/Echo", .info, none⟩] := by
  cases message with
  | none => simp [logged]
  | some m => by_cases h : m = "" <;> simp [logged, h]

/-- No request is greeted without a name. -/
theorem answer_ne_anonymous (r : Request H P) : r.answer ≠ .ok (.echo (some "Hello, !")) := by
  rcases r with (_ | m) | ⟨method, _ | value⟩
  · simp [answer]
  · by_cases h : m = ""
    · simp [answer, h]
    · intro hanswer
      rw [answer_echo_of_ne h] at hanswer
      have hgreeting : "Hello, " ++ m ++ "!" = "Hello, " ++ "" ++ "!" := by
        simpa using hanswer
      exact h (greeting_injective hgreeting)
  · simp [answer]
  · simp [answer]

end Request

end ConnectExamples
