import ConnectExamples.Connect.Service
import ConnectExamples.Go.Error
import ConnectExamples.Tracing.Traced

/-!
# The request log of the Go server

`newLogInterceptor` logs one event for each call of the handler that it wraps,
after the call. Which handlers it wraps is decided where they are mounted.
-/

namespace ConnectExamples

namespace Go

namespace Server

open Tracing

/-- An event of the request log, with the error if there is one. -/
structure LogEvent (P : Type) where
  level : Level
  procedure : String
  protocol : String
  http : String
  peer : String
  method : String
  contentType : String
  userAgent : String
  duration : ℕ
  err : Option (Error P)

def LogEvent.code {P : Type} (ev : LogEvent P) : Option Code := ev.err.map codeOf

/-- What the log of this server is compared by. -/
def LogEvent.line {P : Type} (ev : LogEvent P) : LogLine :=
  ⟨ev.procedure, ev.level, ev.code⟩

abbrev Header := String → List String

/-- `Header.Get`: the first value, empty without one. -/
def Header.get (h : Header) (key : String) : String := (h key).headD ""

structure Peer where
  addr : String
  protocol : String

structure AnyRequest (β : Type) where
  procedure : String
  peer : Peer
  header : Header
  httpMethod : String
  msg : β

/-- A `context.Context`, with the value under `httpProtoKey`. -/
structure Context where
  httpProto : Option String

def httpProtoFromContext (ctx : Context) : String := ctx.httpProto.getD ""

variable {σ β ρ P : Type}

abbrev UnaryFunc (σ β ρ P : Type) :=
  Context → AnyRequest β → Traced (LogEvent P) σ (Result ρ P)

abbrev Interceptor (σ β ρ P : Type) := UnaryFunc σ β ρ P → UnaryFunc σ β ρ P

/-- `Duration.Round(time.Microsecond)` of a duration that is not negative, half
away from zero. -/
def roundMicrosecond (d : ℕ) : ℕ :=
  let r := d % 1000
  if r + r < 1000 then d - r else d + 1000 - r

/-- `newLogInterceptor`; `now` reads the clock, in nanoseconds. -/
def newLogInterceptor (now : σ → ℕ) : Interceptor σ β ρ P := fun next ctx req => do
  let start ← Traced.lift fun s => (now s, s)
  let (res, err) ← next ctx req
  let duration ← Traced.lift fun s => (roundMicrosecond (now s - start), s)
  let level := match err with
    | some _ => Level.error
    | none => Level.info
  Traced.emit fun _ =>
    ⟨level, req.procedure, req.peer.protocol, httpProtoFromContext ctx, req.peer.addr,
      req.httpMethod, req.header.get "Content-Type", req.header.get "User-Agent", duration,
      err⟩
  return (res, err)

/-- `connect.WithInterceptors`: the first interceptor is the outermost. -/
def withInterceptors (interceptors : List (Interceptor σ β ρ P)) : Interceptor σ β ρ P :=
  fun next => interceptors.foldr (fun interceptor next => interceptor next) next

/-- The handler runs once, and the call is logged after it with its level and
its code. -/
theorem exec_newLogInterceptor (now : σ → ℕ) (next : UnaryFunc σ β ρ P) (ctx : Context)
    (req : AnyRequest β) (s : σ) :
    ∃ ev, (newLogInterceptor now next ctx req).exec s =
        ⟨((next ctx req).exec s).result, ((next ctx req).exec s).events ++ [ev],
          ((next ctx req).exec s).state⟩ ∧
      ev.procedure = req.procedure ∧ ev.err = ((next ctx req).exec s).result.2 ∧
      ev.level = if ev.err.isSome then .error else .info := by
  cases hresult : ((next ctx req).exec s).result with
  | mk res err =>
      refine ⟨_, by simp [newLogInterceptor, hresult]; rfl, rfl, rfl, ?_⟩
      cases err <;> rfl

end Server

end Go

end ConnectExamples
