import ConnectExamples.Connect.Service
import ConnectExamples.Rust.Connectrpc
import ConnectExamples.Text.Infix

/-!
# The request log of the Rust server

`interceptUnary` logs one event for each call, unless the path of the call
contains the name of the health service. The search goes over the whole path,
so it also finds the name inside a longer service name or a method name.
-/

namespace ConnectExamples

namespace Rust

open Tracing

def healthServiceName : String := "grpc.health.v1.Health"

/-- An event of the request log, with the error if there is one. -/
structure LogEvent (P : Type) where
  level : Level
  procedure : String
  protocol : String
  peer : String
  contentType : String
  userAgent : String
  duration : ℕ
  error : Option (ConnectError P)

def LogEvent.code {P : Type} (ev : LogEvent P) : Option Code := ev.error.map ConnectError.code

/-- What the log of this server is compared by. -/
def LogEvent.line {P : Type} (ev : LogEvent P) : LogLine :=
  ⟨ev.procedure, ev.level, ev.code.map Code.number⟩

def contains (s pat : String) : Bool := decide (pat.toList <:+: s.toList)

variable {σ β ρ P : Type}

abbrev UnaryResult (ρ P : Type) := Except (ConnectError P) ρ

abbrev Next (σ β ρ P : Type) := UnaryRequest β → Traced (LogEvent P) σ (UnaryResult ρ P)

def RequestContext.headerText (ctx : RequestContext) (name : String) : String :=
  ((ctx.header name).bind HeaderValue.toStr).getD "-"

/-- `LogInterceptor::intercept_unary`; `now` reads the clock, in nanoseconds. -/
def interceptUnary (now : σ → ℕ) (req : UnaryRequest β) (next : Next σ β ρ P) :
    Traced (LogEvent P) σ (UnaryResult ρ P) := do
  let procedure := req.ctx.path.getD "-"
  if contains procedure healthServiceName then
    next req
  else
    let start ← Traced.lift fun s => (now s, s)
    let protocol := req.ctx.protocol.getD "-"
    let peer := req.ctx.peerAddr.getD "-"
    let contentType := req.ctx.headerText "content-type"
    let userAgent := req.ctx.headerText "user-agent"
    let result ← next req
    let duration ← Traced.lift fun s => (now s - start, s)
    match result with
    | .ok _ =>
        Traced.emit fun _ =>
          ⟨.info, procedure, protocol, peer, contentType, userAgent, duration, none⟩
    | .error err =>
        Traced.emit fun _ =>
          ⟨.error, procedure, protocol, peer, contentType, userAgent, duration, some err⟩
    return result

def logEvent (ctx : RequestContext) (duration : ℕ) (result : UnaryResult ρ P) : LogEvent P where
  level := match result with
    | .ok _ => .info
    | .error _ => .error
  procedure := ctx.path.getD "-"
  protocol := ctx.protocol.getD "-"
  peer := ctx.peerAddr.getD "-"
  contentType := ctx.headerText "content-type"
  userAgent := ctx.headerText "user-agent"
  duration := duration
  error := match result with
    | .ok _ => none
    | .error err => some err

section Intercept

variable (now : σ → ℕ) {req : UnaryRequest β} {path : String} (next : Next σ β ρ P) (s : σ)

theorem exec_interceptUnary_of_contains (hpath : req.ctx.path = some path)
    (h : contains path healthServiceName = true) :
    (interceptUnary now req next).exec s = (next req).exec s := by
  simp [interceptUnary, hpath, h]

/-- A call that passes the filter runs its handler once and is logged after
it. -/
theorem exec_interceptUnary (hpath : req.ctx.path = some path)
    (h : contains path healthServiceName = false) :
    (interceptUnary now req next).exec s =
      ⟨((next req).exec s).result,
        ((next req).exec s).events ++
          [logEvent req.ctx (now ((next req).exec s).state - now s) ((next req).exec s).result],
        ((next req).exec s).state⟩ := by
  cases hresult : ((next req).exec s).result with
  | ok value => simp [interceptUnary, hpath, h, hresult, logEvent]
  | error err => simp [interceptUnary, hpath, h, hresult, logEvent]

end Intercept

section Filter

variable {service method : String}

/-- The name of the health service has no separator, so it lies in the service
or in the method of a path. -/
theorem contains_path_iff :
    contains ("/" ++ service ++ "/" ++ method) healthServiceName = true ↔
      healthServiceName.toList <:+: service.toList ∨
        healthServiceName.toList <:+: method.toList := by
  have hsep : '/' ∉ healthServiceName.toList := by decide
  have hpath : ("/" ++ service ++ "/" ++ method).toList =
      '/' :: (service.toList ++ '/' :: method.toList) := by
    simp [String.toList_append]
  rw [contains, decide_eq_true_iff, hpath, Text.infix_cons_sep_iff hsep,
    Text.infix_append_sep_iff hsep]

/-- What the filter is for. On the path of a service and a method the handler
runs once and its result is returned; the health service is not logged, and
every other service is logged once, with its path, its level and its code. -/
def LogsAllButHealth (service method : String) : Prop :=
  ∀ (σ β ρ P : Type) (now : σ → ℕ) (req : UnaryRequest β) (next : Next σ β ρ P) (s : σ),
    req.ctx.path = some ("/" ++ service ++ "/" ++ method) →
      let r := (next req).exec s
      if service = healthServiceName then
        (interceptUnary now req next).exec s = r
      else
        ∃ ev, (interceptUnary now req next).exec s = ⟨r.result, r.events ++ [ev], r.state⟩ ∧
          ev.procedure = "/" ++ service ++ "/" ++ method ∧
          match r.result with
          | .ok _ => ev.level = .info ∧ ev.code = none
          | .error err => ev.level = .error ∧ ev.code = some err.code

/-- A service with another name whose path contains the name of the health
service escapes the log. -/
theorem not_logsAllButHealth (hservice : service ≠ healthServiceName)
    (h : contains ("/" ++ service ++ "/" ++ method) healthServiceName = true) :
    ¬ LogsAllButHealth service method := by
  intro hlogs
  let req : UnaryRequest Unit :=
    ⟨⟨some ("/" ++ service ++ "/" ++ method), none, none, fun _ => none⟩, ()⟩
  have hspec := hlogs Unit Unit Unit Unit (fun _ => 0) req (fun _ => pure (.ok ())) () rfl
  rw [if_neg hservice] at hspec
  obtain ⟨ev, hexec, -⟩ := hspec
  rw [exec_interceptUnary_of_contains _ _ _ rfl h] at hexec
  have hevents := congrArg Run.events hexec
  simp at hevents

/-- The filter leaves out the health service alone exactly for the services that
are the health service, or whose service and method names do not contain its
name. -/
theorem logsAllButHealth_iff (service method : String) :
    LogsAllButHealth service method ↔
      service = healthServiceName ∨
        ¬ (healthServiceName.toList <:+: service.toList ∨
          healthServiceName.toList <:+: method.toList) := by
  rw [← contains_path_iff]
  constructor
  · intro hlogs
    by_contra hnot
    rw [not_or, not_not] at hnot
    exact not_logsAllButHealth hnot.1 hnot.2 hlogs
  · rintro hcase σ β ρ P now req next s hpath
    by_cases hservice : service = healthServiceName
    · have hhealth : contains ("/" ++ service ++ "/" ++ method) healthServiceName = true :=
        contains_path_iff.mpr (.inl (hservice ▸ List.infix_refl _))
      rw [if_pos hservice]
      exact exec_interceptUnary_of_contains now next s hpath hhealth
    · have hother : contains ("/" ++ service ++ "/" ++ method) healthServiceName = false :=
        Bool.not_eq_true _ ▸ hcase.resolve_left hservice
      rw [if_neg hservice]
      refine ⟨_, exec_interceptUnary now next s hpath hother, ?_, ?_⟩
      · simp [logEvent, hpath]
      · cases hresult : ((next req).exec s).result with
        | ok value => simp [logEvent, LogEvent.code]
        | error err => simp [logEvent, LogEvent.code]

theorem healthProxy_not_logged :
    ¬ LogsAllButHealth "my.grpc.health.v1.HealthProxy" "Check" :=
  not_logsAllButHealth (by decide) (by decide)

end Filter

end Rust

end ConnectExamples
