import ConnectExamples.Client.RetryPolicy
import ConnectExamples.Rpc.Progress
import ConnectExamples.Server.Agreement

/-!
# Clients deployed against a server

An endpoint is a server that gives every request the answer it deserves and logs what
the request leaves; the Go and the Rust server are endpoints. A deployment is a network
of clients that follow the retry policy, with the state and the log of one endpoint: the
server handles a request when the network says so, and its answer crosses the wire as
the number of an error code or as the message of a reply.
-/

namespace ConnectExamples

open Retry Rpc Server Transition

/-- A server as its clients and its operator see it: the answer to a request, the lines
that it logs, and its next state. -/
structure Endpoint (H P τ : Type) where
  serve : Incoming H P → τ → Option (Except UInt32 (Response H)) × List LogLine × τ
  answers : ∀ r t, (serve r t).1 = some (r.request.answer.mapError Code.number)
  logs : ∀ r t, (serve r t).2.1 = r.request.logged

section Servers

variable {σ τ H P : Type}

def Go.Server.endpoint
    {validate : Go.Server.Interceptor σ Go.Server.EchoRequest Go.Server.EchoResponse P}
    (hvalidate : Go.Server.Validates Go.Server.echoRequestRules validate) (m : Machine σ) :
    Endpoint H P σ where
  serve r s :=
    let run := (Go.Server.serve validate m r.go r.request).exec s
    (Go.Server.view run.result, run.events.map Go.Server.LogEvent.line, run.state)
  answers r s := (Go.Server.serve_spec hvalidate m r.go r.request s).1
  logs r s := (Go.Server.serve_spec hvalidate m r.go r.request s).2

def Rust.endpoint {connectImpl : Rust.ConnectImpl τ P}
    (hvalidate : Rust.ValidatesFirst connectImpl) (m : Machine τ) : Endpoint H P τ where
  serve r t :=
    let run := (Rust.serve connectImpl m r.rust r.request).exec t
    (some (Rust.view run.result), run.events.map Rust.LogEvent.line, run.state)
  answers r t := congrArg some (Rust.serve_spec hvalidate m r.rust r.request t).1
  logs r t := (Rust.serve_spec hvalidate m r.rust r.request t).2

end Servers

/-- A caller of `Echo`: its message, and the metadata of each of its attempts. -/
structure Caller where
  message : Option String
  go : ℕ → Go.Server.Metadata
  rust : ℕ → Rust.Metadata

def Caller.incoming {H P : Type} (c : Caller) (k : ℕ) : Incoming H P :=
  ⟨.echo c.message, c.go k, c.rust k⟩

/-- What a server says when a caller hears `o`. -/
def Outcome.said {H Q : Type} (o : Outcome (Option String) Q) : Except UInt32 (Response H) :=
  (o.map Response.echo).mapError fun e => e.1.number

/-- What a caller with this message deserves to hear: a greeting, or that the message is
absent or empty. -/
def Deserves {Q : Type} (message : Option String) : Outcome (Option String) Q → Prop
  | .ok reply => ∃ text, message = some text ∧ text ≠ "" ∧ reply = some ("Hello, " ++ text ++ "!")
  | .error e => (message = none ∨ message = some "") ∧ e.1 = .invalidArgument

/-- An answer of the server is what the caller deserves to hear. -/
theorem deserves_of_said {H P Q : Type} {message : Option String}
    {o : Outcome (Option String) Q}
    (h : (Request.echo message : Request H P).answer.mapError Code.number = o.said) :
    Deserves message o := by
  by_cases hmessage : message = none ∨ message = some ""
  · rw [(Request.answer_echo_eq_error_iff message).mpr hmessage] at h
    rcases o with e | reply
    · exact ⟨hmessage, Code.number_injective (Except.error.inj h).symm⟩
    · cases h
  · obtain ⟨text, rfl⟩ := Option.ne_none_iff_exists'.mp (not_or.mp hmessage).1
    have hne : text ≠ "" := by simpa using hmessage
    rw [Request.answer_echo_of_ne hne] at h
    rcases o with e | reply
    · cases h
    · exact ⟨text, rfl, hne, (Response.echo.inj (Except.ok.inj h)).symm⟩

/-- A network of callers, and the server that they call. -/
structure Deployment (ι Q τ : Type) where
  net : Net ι (Outcome (Option String) Q)
  log : List LogLine
  server : τ

namespace Deployment

variable {ι H P Q τ : Type}

def start (t : τ) : Deployment ι Q τ := ⟨.start, [], t⟩

/-- A call may fail with any Connect error. -/
def Failed (o : Outcome (Option String) Q) : Prop := ∃ e, o = .error e

variable [DecidableEq ι] (E : Endpoint H P τ) (callers : ι → Caller)

/-- A step of a deployment is a step of its network, in which the server runs when it
handles a request. -/
inductive Step : Deployment ι Q τ → Action ι (Outcome (Option String) Q) →
    Deployment ι Q τ → Prop
  | serve {D : Deployment ι Q τ} {i : ι} {k : ℕ} {o : Outcome (Option String) Q}
      {N : Net ι (Outcome (Option String) Q)}
      (hsaid : (E.serve ((callers i).incoming k) D.server).1 = some (Outcome.said o))
      (hnet : Rpc.Step Client.retryPolicy (fun j o' => j = i ∧ o' = o) Failed D.net
        (.handle i k o) N) :
      Step D (.handle i k o)
        ⟨N, D.log ++ (E.serve ((callers i).incoming k) D.server).2.1,
          (E.serve ((callers i).incoming k) D.server).2.2⟩
  | other {D : Deployment ι Q τ} {a : Action ι (Outcome (Option String) Q)}
      {N : Net ι (Outcome (Option String) Q)}
      (hnet : Rpc.Step Client.retryPolicy (fun _ _ => False) Failed D.net a N) :
      Step D a { D with net := N }

end Deployment

end ConnectExamples
