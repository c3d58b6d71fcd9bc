import ConnectExamples.Go.Server
import ConnectExamples.Rust.Server

/-!
# One service on two servers

Each server gives every request the answer it deserves and logs what it leaves,
whatever the metadata and the clock, so on every sequence of requests the two
have the same answers and the same log.
-/

namespace ConnectExamples

namespace Server

open Tracing

variable {σ τ H P : Type}

/-- A request with the metadata that it has on either server. -/
structure Incoming (H P : Type) where
  request : Request H P
  go : Go.Server.Metadata
  rust : Rust.Metadata

/-- The Go and the Rust server are the same service. On every sequence of
requests they give the same answers and write the same log. A message that is
absent or empty is answered with `InvalidArgument`, every other one with its
greeting, so nobody is greeted without a name and distinct messages are
distinguished; an Echo request leaves one line, at error level exactly when it
is rejected, and the health service answers for itself and leaves none. -/
theorem servers_agree
    {validate : Go.Server.Interceptor σ Go.Server.EchoRequest Go.Server.EchoResponse P}
    (hgo : Go.Server.Validates Go.Server.echoRequestRules validate)
    {connectImpl : Rust.ConnectImpl τ P} (hrust : Rust.ValidatesFirst connectImpl)
    (goMachine : Machine σ) (rustMachine : Machine τ) (requests : List (Incoming H P))
    (s : σ) (t : τ) :
    let go := (requests.mapM fun r => Go.Server.serve validate goMachine r.go r.request).exec s
    let rust := (requests.mapM fun r => Rust.serve connectImpl rustMachine r.rust r.request).exec t
    go.result.map Go.Server.view = rust.result.map (some ∘ Rust.view) ∧
      go.events.map Go.Server.LogEvent.line = rust.events.map Rust.LogEvent.line ∧
      rust.result.map Rust.view = requests.map (fun r => r.request.answer.mapError Code.number) ∧
      rust.events.map Rust.LogEvent.line = requests.flatMap (fun r => r.request.logged) ∧
      (∀ r : Request H P, r.answer ≠ .ok (.echo (some "Hello, !"))) ∧
      (∀ message : Option String,
        (Request.answer (.echo message : Request H P) = .error .invalidArgument ↔
          message = none ∨ message = some "") ∧
        Request.logged (.echo message : Request H P) =
          [if message = none ∨ message = some "" then
              ⟨"/api.v1.EchoService/Echo", .error, some Code.invalidArgument.number⟩
            else ⟨"/api.v1.EchoService/Echo", .info, none⟩]) ∧
      (∀ m : String, m ≠ "" →
        Request.answer (.echo (some m) : Request H P) =
          .ok (.echo (some ("Hello, " ++ m ++ "!")))) ∧
      (∀ m m' : String, m ≠ "" → m' ≠ "" →
        Request.answer (.echo (some m) : Request H P) =
          Request.answer (.echo (some m') : Request H P) → m = m') ∧
      ∀ (method : String) (outcome : Outcome H P) (g : Go.Server.Metadata)
          (r : Rust.Metadata),
        Request.logged (.health method outcome) = [] ∧
          ((Go.Server.serve validate goMachine g (.health method outcome)).exec s).result =
            some (Outcome.toGo (fun _ => 0) (outcome.map Response.health)) ∧
          ((Rust.serve connectImpl rustMachine r (.health method outcome)).exec t).result =
            Outcome.toRust (outcome.map Response.health) := by
  intro go rust
  obtain ⟨hgoAnswers, hgoLog⟩ := Traced.exec_mapM
    (fun r : Incoming H P => Go.Server.serve validate goMachine r.go r.request)
    Go.Server.view Go.Server.LogEvent.line
    (fun r => some (r.request.answer.mapError Code.number)) (fun r => r.request.logged)
    (fun r s => Go.Server.serve_spec hgo goMachine r.go r.request s) requests s
  obtain ⟨hrustAnswers, hrustLog⟩ := Traced.exec_mapM
    (fun r : Incoming H P => Rust.serve connectImpl rustMachine r.rust r.request)
    Rust.view Rust.LogEvent.line
    (fun r => r.request.answer.mapError Code.number) (fun r => r.request.logged)
    (fun r s => Rust.serve_spec hrust rustMachine r.rust r.request s) requests t
  refine ⟨?_, hgoLog.trans hrustLog.symm, hrustAnswers, hrustLog, Request.answer_ne_anonymous,
    fun message => ⟨Request.answer_echo_eq_error_iff message, Request.logged_echo message⟩,
    fun m hm => Request.answer_echo_of_ne hm,
    fun m m' hm hm' => Request.answer_echo_injective hm hm', ?_⟩
  · rw [← List.map_map, hrustAnswers, List.map_map]
    exact hgoAnswers
  · intro method outcome g r
    rw [Go.Server.exec_serve_health, Rust.exec_serve_health]
    exact ⟨rfl, rfl, rfl⟩

def violation : Go.Error Unit :=
  .node ⟨.other 0, .connectError Go.codeInvalidArgument (), fun _ => false⟩ []

/-- A validate interceptor that evaluates the rules of the field. -/
def validateRules : Go.Server.Interceptor Unit Go.Server.EchoRequest Go.Server.EchoResponse Unit :=
  fun next ctx req =>
    if Go.Server.echoRequestRules.accepts req.msg then next ctx req
    else pure (none, some violation)

/-- An attribute that runs the validator first. -/
def validateFirst : Rust.ConnectImpl Unit Unit := fun validate handler ctx request =>
  match validate request with
  | .ok () => handler ctx request
  | .error e =>
      match e.runtimeError with
      | none => pure (.error ⟨.invalidArgument, ()⟩)
      | some _ => pure (.error ⟨.internal, ()⟩)

theorem validates_validateRules :
    Go.Server.Validates Go.Server.echoRequestRules validateRules where
  accept next ctx req h := by simp [validateRules, h]
  reject next ctx req h := ⟨violation, rfl, by simp [validateRules, h]⟩

theorem validatesFirst_validateFirst : Rust.ValidatesFirst validateFirst where
  accept validate handler ctx request h := by simp [validateFirst, h]
  reject validate handler ctx request e h hruntime :=
    ⟨⟨.invalidArgument, ()⟩, rfl, by simp [validateFirst, h, hruntime]⟩

/-- An absent message, an empty one and a name. -/
def threeRequests : List (Incoming Unit Unit) :=
  [none, some "", some "Jane"].map fun message =>
    ⟨.echo message, ⟨"HTTP/1.1", ⟨"127.0.0.1:9", "connect"⟩, fun _ => [], "POST"⟩,
      ⟨none, none, fun _ => none⟩⟩

/-- Two rejections and a greeting, on either server. -/
theorem threeRequests_agree :
    let m : Machine Unit := ⟨fun _ => 0, id⟩
    ((threeRequests.mapM fun r => Go.Server.serve validateRules m r.go r.request).exec
        ()).result.map Go.Server.view =
      ((threeRequests.mapM fun r => Rust.serve validateFirst m r.rust r.request).exec
        ()).result.map (some ∘ Rust.view) :=
  (servers_agree validates_validateRules validatesFirst_validateFirst _ _ threeRequests () ()).1

end Server

end ConnectExamples
