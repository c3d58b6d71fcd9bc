import ConnectExamples.Go.Log

/-!
# The Go server

The mux gives a request to the handler of the Echo service, which the log
interceptor and the validate interceptor wrap, or to the health handler, which
nothing wraps. The validate interceptor is a value of another package: it is an
interceptor `validate`, of which the server relies on `Validates`.
-/

namespace ConnectExamples

namespace Go

namespace Server

open Tracing

/-- A message of the opaque API with one string field: the pointer, and bit 0 of
the presence word, which is set along with it. -/
structure OpaqueMessage where
  hiddenMessage : Option String
  presence : Bool
  presence_eq : presence = hiddenMessage.isSome

namespace OpaqueMessage

def empty : OpaqueMessage := ⟨none, false, rfl⟩

/-- `GetMessage`, also on a nil receiver. -/
def getMessage : Option OpaqueMessage → String
  | none => ""
  | some x => x.hiddenMessage.getD ""

def hasMessage (x : OpaqueMessage) : Bool := x.presence

def setMessage (_ : OpaqueMessage) (v : String) : OpaqueMessage := ⟨some v, true, rfl⟩

def build (message : Option String) : OpaqueMessage :=
  match message with
  | none => empty
  | some v => ⟨some v, true, rfl⟩

@[simp] theorem build_hiddenMessage (message : Option String) :
    (build message).hiddenMessage = message := by
  cases message <;> rfl

end OpaqueMessage

abbrev EchoRequest := OpaqueMessage

abbrev EchoResponse := OpaqueMessage

/-- The rules `(buf.validate.field)` of a string field. -/
structure StringRules where
  required : Bool
  minLen : ℕ

def echoRequestRules : StringRules := ⟨true, 1⟩

/-- A field with presence satisfies its rules: a required field is set, and a
field that is set has its minimal length. -/
def StringRules.accepts (rules : StringRules) (x : OpaqueMessage) : Bool :=
  (!rules.required || x.hasMessage) &&
    (!x.hasMessage || rules.minLen ≤ (OpaqueMessage.getMessage (some x)).length)

variable {σ ρ H P : Type}

/-- What the server relies on: a request that satisfies the rules of its fields
goes on, and another one is answered with `InvalidArgument`. -/
structure Validates (rules : StringRules) (validate : Interceptor σ EchoRequest ρ P) :
    Prop where
  accept : ∀ next ctx req, rules.accepts req.msg = true →
    validate next ctx req = next ctx req
  reject : ∀ next ctx req, rules.accepts req.msg = false →
    ∃ err, codeOf err = codeInvalidArgument ∧ validate next ctx req = pure (none, some err)

def echo (m : Machine σ) : UnaryFunc σ EchoRequest EchoResponse P := fun _ req =>
  let res := OpaqueMessage.empty
  let res := res.setMessage ("Hello, " ++ OpaqueMessage.getMessage (some req.msg) ++ "!")
  Traced.lift fun s => ((some res, none), m.work s)

def echoServiceEchoProcedure : String := "/api.v1.EchoService/Echo"

inductive Mount where
  | echo
  | health
  deriving DecidableEq

/-- The patterns of the mux, which end with a slash and match every path below
them. -/
def mux : List (String × Mount) :=
  [("/api.v1.EchoService/", .echo), ("/grpc.health.v1.Health/", .health)]

def below (pattern path : String) : Bool := pattern.toList.isPrefixOf path.toList

def route (path : String) : Option Mount :=
  (mux.find? fun entry => below entry.1 path).map Prod.snd

/-- What an HTTP request carries besides its path and its body. -/
structure Metadata where
  proto : String
  peer : Peer
  header : Header
  httpMethod : String

def withHTTPProto (metadata : Metadata) (_ : Context) : Context := ⟨some metadata.proto⟩

/-- The handler that `NewEchoServiceHandler` returns, with the interceptors of the
server; it finds nothing at another path. -/
def echoServiceHandler (validate : Interceptor σ EchoRequest EchoResponse P) (m : Machine σ)
    (path : String) (ctx : Context) (metadata : Metadata) (msg : EchoRequest) :
    Traced (LogEvent P) σ (Option (Result EchoResponse P)) :=
  if path = echoServiceEchoProcedure then do
    let req : AnyRequest EchoRequest :=
      ⟨echoServiceEchoProcedure, metadata.peer, metadata.header, metadata.httpMethod, msg⟩
    let result ← withInterceptors [newLogInterceptor m.now, validate] (echo m) ctx req
    return some result
  else return none

def ofEchoResult (r : Result EchoResponse P) : Result (Response H) P :=
  (r.1.map fun res => .echo res.hiddenMessage, r.2)

/-- The server answers one request; there is no answer where no handler is
found. -/
def serve (validate : Interceptor σ EchoRequest EchoResponse P) (m : Machine σ)
    (metadata : Metadata) (request : Request H P) :
    Traced (LogEvent P) σ (Option (Result (Response H) P)) :=
  match route request.path, request with
  | some .echo, .echo message => do
      let result ← echoServiceHandler validate m request.path
        (withHTTPProto metadata ⟨none⟩) metadata (.build message)
      return result.map ofEchoResult
  | some .health, .health _ outcome =>
      Traced.lift fun s => (some (Outcome.toGo (fun _ => 0) (outcome.map .health)), m.work s)
  | _, _ => return none

/-- The answer of the server, as far as it can be compared with that of another
server. -/
def view : Option (Result (Response H) P) → Option (Except UInt32 (Response H))
  | some (_, some err) => some (.error (codeOf err))
  | some (some res, none) => some (.ok res)
  | some (none, none) | none => none

section Mux

theorem route_echo (message : Option String) :
    route (Request.echo message : Request H P).path = some .echo := by
  rw [Request.path_echo]
  decide

theorem route_health (method : String) (outcome : Outcome H P) :
    route (Request.health method outcome).path = some .health := by
  have hpath : (Request.health method outcome).path.toList =
      "/grpc.health.v1.Health/".toList ++ method.toList := by
    have hprefix : "/" ++ "grpc.health.v1.Health" ++ "/" = "/grpc.health.v1.Health/" := by
      decide
    rw [← String.toList_append, ← hprefix]
    rfl
  have hecho : below "/api.v1.EchoService/" (Request.health method outcome).path = false := by
    rw [below, hpath, ← Bool.not_eq_true, List.isPrefixOf_iff_prefix]
    intro h
    have hshort := List.prefix_of_prefix_length_le h
      (List.prefix_append "/grpc.health.v1.Health/".toList _) (by decide)
    exact absurd hshort (by decide)
  have hhealth : below "/grpc.health.v1.Health/" (Request.health method outcome).path = true := by
    rw [below, hpath, List.isPrefixOf_iff_prefix]
    exact List.prefix_append _ _
  simp [route, mux, hecho, hhealth]

end Mux

theorem accepts_build_iff (message : Option String) :
    echoRequestRules.accepts (.build message) = true ↔ ∃ s, message = some s ∧ s ≠ "" := by
  cases message with
  | none => simp [StringRules.accepts, echoRequestRules, OpaqueMessage.build,
      OpaqueMessage.empty, OpaqueMessage.hasMessage]
  | some s =>
      have hlength : 1 ≤ s.length ↔ s ≠ "" := by
        rw [Nat.one_le_iff_ne_zero, Ne, String.length_eq_zero_iff]
      simp [StringRules.accepts, echoRequestRules, OpaqueMessage.build,
        OpaqueMessage.hasMessage, OpaqueMessage.getMessage, hlength]

section Echo

variable {validate : Interceptor σ EchoRequest EchoResponse P}

/-- The health handler answers for itself, and nothing is logged. -/
theorem exec_serve_health (m : Machine σ) (metadata : Metadata) (method : String)
    (outcome : Outcome H P) (s : σ) :
    (serve validate m metadata (.health method outcome)).exec s =
      ⟨some (Outcome.toGo (fun _ => 0) (outcome.map .health)), [], m.work s⟩ := by
  unfold serve
  rw [route_health]
  rfl

variable
  (hvalidate : Validates echoRequestRules validate) (m : Machine σ) (ctx : Context)

include hvalidate

/-- A message that is present and not empty is greeted. -/
theorem exec_validate_of_ne (req : AnyRequest EchoRequest) {message : String}
    (hreq : req.msg = .build (some message)) (hne : message ≠ "") (s : σ) :
    (validate (echo m) ctx req).exec s =
      ⟨(some (.build (some ("Hello, " ++ message ++ "!"))), none), [], m.work s⟩ := by
  have haccept : echoRequestRules.accepts req.msg = true := by
    rw [hreq]
    exact (accepts_build_iff _).mpr ⟨message, rfl, hne⟩
  rw [hvalidate.accept _ ctx req haccept]
  simp [echo, hreq, OpaqueMessage.getMessage, OpaqueMessage.build, OpaqueMessage.setMessage]

theorem exec_validate_of_absent_or_empty (req : AnyRequest EchoRequest)
    {message : Option String} (hreq : req.msg = .build message)
    (h : message = none ∨ message = some "") (s : σ) :
    ∃ err, codeOf err = codeInvalidArgument ∧
      (validate (echo m) ctx req).exec s = ⟨(none, some err), [], s⟩ := by
  have hreject : echoRequestRules.accepts req.msg = false := by
    rw [hreq, ← Bool.not_eq_true, accepts_build_iff]
    rcases h with rfl | rfl <;> simp
  obtain ⟨err, hcode, hpure⟩ := hvalidate.reject (echo m) ctx req hreject
  exact ⟨err, hcode, by rw [hpure, Traced.exec_pure]⟩

theorem exec_echoServiceHandler_of_ne (metadata : Metadata) {message : String}
    (hne : message ≠ "") (s : σ) :
    ∃ ev, ev.line = ⟨echoServiceEchoProcedure, .info, none⟩ ∧
      (echoServiceHandler validate m echoServiceEchoProcedure ctx metadata
          (.build (some message))).exec s =
        ⟨some (some (.build (some ("Hello, " ++ message ++ "!"))), none), [ev], m.work s⟩ := by
  let req : AnyRequest EchoRequest := ⟨echoServiceEchoProcedure, metadata.peer, metadata.header,
    metadata.httpMethod, .build (some message)⟩
  have hcall := exec_validate_of_ne hvalidate m ctx req rfl hne s
  obtain ⟨ev, hexec, hprocedure, herr, hlevel⟩ :=
    exec_newLogInterceptor m.now (validate (echo m)) ctx req s
  rw [hcall] at hexec herr
  refine ⟨ev, ?_, ?_⟩
  · simp [LogEvent.line, LogEvent.code, hprocedure, hlevel, herr, req]
  · simp [echoServiceHandler, withInterceptors, hexec, req]

theorem exec_echoServiceHandler_of_absent_or_empty (metadata : Metadata)
    {message : Option String} (h : message = none ∨ message = some "") (s : σ) :
    ∃ ev err, ev.line = ⟨echoServiceEchoProcedure, .error, some codeInvalidArgument⟩ ∧
      codeOf err = codeInvalidArgument ∧
      (echoServiceHandler validate m echoServiceEchoProcedure ctx metadata
          (.build message)).exec s = ⟨some (none, some err), [ev], s⟩ := by
  let req : AnyRequest EchoRequest := ⟨echoServiceEchoProcedure, metadata.peer, metadata.header,
    metadata.httpMethod, .build message⟩
  obtain ⟨err, hcode, hcall⟩ :=
    exec_validate_of_absent_or_empty hvalidate m ctx req rfl h s
  obtain ⟨ev, hexec, hprocedure, herr, hlevel⟩ :=
    exec_newLogInterceptor m.now (validate (echo m)) ctx req s
  rw [hcall] at hexec herr
  refine ⟨ev, err, ?_, hcode, ?_⟩
  · simp [LogEvent.line, LogEvent.code, hprocedure, hlevel, herr, hcode, req]
  · simp [echoServiceHandler, withInterceptors, hexec, req]

/-- The server gives the answer that a request deserves and logs what it
leaves. -/
theorem serve_spec (metadata : Metadata) (request : Request H P) (s : σ) :
    view ((serve validate m metadata request).exec s).result =
        some (request.answer.mapError Code.number) ∧
      ((serve validate m metadata request).exec s).events.map LogEvent.line =
        request.logged := by
  cases request with
  | health method outcome =>
      rw [exec_serve_health]
      rcases outcome with ⟨code, payload⟩ | value <;> exact ⟨rfl, rfl⟩
  | echo message =>
      unfold serve
      rw [route_echo, Request.path_echo]
      by_cases hmessage : message = none ∨ message = some ""
      · obtain ⟨ev, err, hline, hcode, hexec⟩ := exec_echoServiceHandler_of_absent_or_empty
          hvalidate m (withHTTPProto metadata ⟨none⟩) metadata hmessage s
        rw [echoServiceEchoProcedure] at hexec hline
        rcases hmessage with rfl | rfl <;>
          simp [hexec, ofEchoResult, view, hcode, hline, Request.answer, Request.logged,
            Except.mapError, codeInvalidArgument, Code.number]
      · obtain ⟨text, rfl⟩ := Option.ne_none_iff_exists'.mp (not_or.mp hmessage).1
        have hne : text ≠ "" := by simpa using hmessage
        obtain ⟨ev, hline, hexec⟩ := exec_echoServiceHandler_of_ne hvalidate m
          (withHTTPProto metadata ⟨none⟩) metadata hne s
        rw [echoServiceEchoProcedure] at hexec hline
        simp [hexec, ofEchoResult, view, hline, Request.answer, Request.logged, hne,
          Except.mapError]

end Echo

end Server

end Go

end ConnectExamples
