import ConnectExamples.Rust.Log
import ConnectExamples.Rust.Validate

/-!
# The Rust server

The interceptor stands around the router, which gives a request to the Echo
service or to the health service. The attribute `connect_impl` is a macro of
another crate: it is a function `connectImpl` from the validator and the body of
a handler to a handler, of which the server relies on `ValidatesFirst`.
-/

namespace ConnectExamples

namespace Rust

open Tracing

variable {σ H P : Type}

abbrev EchoHandler (σ P : Type) :=
  RequestContext → EchoRequest → Traced (LogEvent P) σ (UnaryResult EchoResponse P)

/-- The attribute `protovalidate_buffa::connect_impl`, on a handler. -/
abbrev ConnectImpl (σ P : Type) :=
  (EchoRequest → Except ValidationError Unit) → EchoHandler σ P → EchoHandler σ P

/-- What the server relies on: the handler runs on what the validator accepts,
and a violation is answered with `InvalidArgument`. -/
structure ValidatesFirst (connectImpl : ConnectImpl σ P) : Prop where
  accept : ∀ validate handler ctx request, validate request = .ok () →
    connectImpl validate handler ctx request = handler ctx request
  reject : ∀ validate handler ctx request e, validate request = .error e →
    e.runtimeError = none →
      ∃ err, err.code = .invalidArgument ∧
        connectImpl validate handler ctx request = pure (.error err)

/-- The body of `EchoServer::echo`. -/
def echoBody (m : Machine σ) : EchoHandler σ P := fun _ request =>
  let message := request.message.getD ""
  Traced.lift fun s => (.ok ⟨some ("Hello, " ++ message ++ "!")⟩, m.work s)

/-- Every reply passes the validator of replies. -/
theorem echoBody_valid (m : Machine σ) (ctx : RequestContext) (request : EchoRequest) (s : σ) :
    ∃ res, ((echoBody m ctx request : Traced (LogEvent P) σ _).exec s).result = .ok res ∧
      res.validate = .ok () := by
  refine ⟨_, rfl, EchoResponse.validate_eq_ok fun h => ?_⟩
  have hlist := congrArg String.toList h
  simp [String.toList_append] at hlist

def echo (connectImpl : ConnectImpl σ P) (m : Machine σ) : EchoHandler σ P :=
  connectImpl EchoRequest.validate (echoBody m)

/-- The router, with the Echo service and the health service registered. -/
def router (connectImpl : ConnectImpl σ P) (m : Machine σ) :
    Next σ (Request H P) (Response H) P := fun req =>
  match req.body with
  | .echo message => do
      let result ← echo connectImpl m req.ctx ⟨message⟩
      return result.map fun res => .echo res.message
  | .health _ outcome => Traced.lift fun s => (Outcome.toRust (outcome.map .health), m.work s)

structure Metadata where
  protocol : Option String
  peerAddr : Option String
  header : String → Option HeaderValue

def Metadata.context (metadata : Metadata) (path : String) : RequestContext :=
  ⟨some path, metadata.protocol, metadata.peerAddr, metadata.header⟩

def serve (connectImpl : ConnectImpl σ P) (m : Machine σ) (metadata : Metadata)
    (request : Request H P) : Traced (LogEvent P) σ (UnaryResult (Response H) P) :=
  interceptUnary m.now ⟨metadata.context request.path, request⟩ (router connectImpl m)

/-- The answer of the server, as far as it can be compared with that of another
server. -/
def view (result : UnaryResult (Response H) P) : Except UInt32 (Response H) :=
  result.mapError fun err => err.code.number

section Echo

variable {connectImpl : ConnectImpl σ P} (hvalidate : ValidatesFirst connectImpl)
  (m : Machine σ) (ctx : RequestContext)

include hvalidate

/-- A message that is present and not empty is greeted. -/
theorem echo_of_ne {message : String} (hne : message ≠ "") :
    echo connectImpl m ctx ⟨some message⟩ = echoBody m ctx ⟨some message⟩ :=
  hvalidate.accept _ _ ctx _ ((validateMessage_eq_ok_iff _).mpr ⟨message, rfl, hne⟩)

theorem echo_of_absent_or_empty {message : Option String}
    (h : message = none ∨ message = some "") :
    ∃ err, err.code = .invalidArgument ∧
      echo connectImpl m ctx ⟨message⟩ = pure (.error err) := by
  have hnot : ¬ ∃ s, message = some s ∧ s ≠ "" := by
    rcases h with rfl | rfl
    · simp
    · simp
  cases hresult : EchoRequest.validate ⟨message⟩ with
  | ok u => exact absurd ((validateMessage_eq_ok_iff message).mp hresult) hnot
  | error e =>
      have hruntime : e.runtimeError = none := (validateMessage_error hresult).1
      exact hvalidate.reject _ _ ctx _ e hresult hruntime

theorem exec_router_of_ne {message : String} (hne : message ≠ "") (s : σ) :
    (router connectImpl m ⟨ctx, (.echo (some message) : Request H P)⟩).exec s =
      ⟨.ok (.echo (some ("Hello, " ++ message ++ "!"))), [], m.work s⟩ := by
  simp [router, echo_of_ne hvalidate m ctx hne, echoBody, Except.map]

theorem exec_router_of_absent_or_empty {message : Option String}
    (h : message = none ∨ message = some "") (s : σ) :
    ∃ err, err.code = .invalidArgument ∧
      (router connectImpl m ⟨ctx, (.echo message : Request H P)⟩).exec s =
        ⟨.error err, [], s⟩ := by
  obtain ⟨err, hcode, hecho⟩ := echo_of_absent_or_empty hvalidate m ctx h
  exact ⟨err, hcode, by simp [router, hecho, Except.map]⟩

end Echo

section Serve

theorem contains_health (method : String) (outcome : Outcome H P) :
    contains (Request.health method outcome).path healthServiceName = true :=
  contains_path_iff.mpr (.inl (List.infix_refl _))

theorem contains_echo (message : Option String) :
    contains (Request.echo message : Request H P).path healthServiceName = false := by
  rw [Request.path_echo]
  decide

variable {connectImpl : ConnectImpl σ P} (hvalidate : ValidatesFirst connectImpl)
  (m : Machine σ) (metadata : Metadata)

/-- The health service answers for itself, and nothing is logged. -/
theorem exec_serve_health (method : String) (outcome : Outcome H P) (s : σ) :
    (serve connectImpl m metadata (.health method outcome)).exec s =
      ⟨Outcome.toRust (outcome.map .health), [], m.work s⟩ :=
  exec_interceptUnary_of_contains _ _ _ rfl (contains_health method outcome)

include hvalidate

/-- The server gives the answer that a request deserves and logs what it
leaves. -/
theorem serve_spec (request : Request H P) (s : σ) :
    view ((serve connectImpl m metadata request).exec s).result =
        request.answer.mapError Code.number ∧
      ((serve connectImpl m metadata request).exec s).events.map LogEvent.line =
        request.logged := by
  cases request with
  | health method outcome =>
      rw [exec_serve_health]
      rcases outcome with ⟨code, payload⟩ | value <;> exact ⟨rfl, rfl⟩
  | echo message =>
      rw [serve, exec_interceptUnary _ _ _ rfl (contains_echo message)]
      by_cases hmessage : message = none ∨ message = some ""
      · obtain ⟨err, hcode, hrouter⟩ := exec_router_of_absent_or_empty (H := H) hvalidate m
          (metadata.context (Request.echo message : Request H P).path) hmessage s
        rw [hrouter]
        rcases hmessage with rfl | rfl <;>
          simp [view, Except.mapError, Request.answer, Request.logged, hcode, logEvent,
            LogEvent.line, LogEvent.code, Metadata.context, Request.path_echo]
      · obtain ⟨text, rfl⟩ := Option.ne_none_iff_exists'.mp (not_or.mp hmessage).1
        have hne : text ≠ "" := by simpa using hmessage
        rw [exec_router_of_ne hvalidate m _ hne s]
        simp [view, Except.mapError, Request.answer, Request.logged, hne, logEvent,
          LogEvent.line, LogEvent.code, Metadata.context, Request.path_echo]

end Serve

end Rust

end ConnectExamples
