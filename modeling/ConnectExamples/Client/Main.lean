import ConnectExamples.Client.RetryPolicy
import ConnectExamples.Go.Server
import ConnectExamples.Retry.Machine
import ConnectExamples.Rust.Validate

/-!
# The main functions of the clients

Each client sends one request through its retry loop and reports the outcome: it
prints the message of the reply, or complains and exits with a status that is not
zero. Only the text of the reply is modelled of what is printed: the Go client puts
a time before it and writes to standard error, and each complains in words of its own.
The Python client checks the reply first, with a validator of another package.
Against the same service the three finish alike, but for a reply that is absent or
empty.
-/

namespace ConnectExamples

open Retry Tracing

/-- What a client program leaves: the text of the reply if it prints one, and its exit
status. -/
structure Finished where
  printed : Option String
  status : ℕ
  deriving DecidableEq

/-- A client that trusts every reply prints its message, or nothing and fails. -/
def Outcome.finished {P : Type} : Outcome (Option String) P → Finished
  | .ok message => ⟨some (message.getD ""), 0⟩
  | .error _ => ⟨none, 1⟩

/-- The rules of the field `message`: it is set, and it is not empty. -/
def Acceptable (message : Option String) : Prop := ∃ m, message = some m ∧ m ≠ ""

namespace Go

open Server

variable {σ P : Type}

def request : EchoRequest := OpaqueMessage.empty.setMessage "Jane"

/-- What `main` does with the result of its call: `log.Fatal` or `log.Println`. -/
def report : Result EchoResponse P → Finished
  | (_, some _) => ⟨none, 1⟩
  | (res, none) => ⟨some (OpaqueMessage.getMessage res), 0⟩

/-- `main` of the Go client; `call` is what the retry interceptor gets as `next`. -/
def main (w : World σ) (call : EchoRequest → UnaryFunc Unit σ EchoResponse P) :
    Traced (RetryEvent Unit σ EchoResponse P) σ Finished := do
  let result ← retryUnary w () (call request)
  return report result

end Go

namespace Rust

variable {σ P : Type}

def request : EchoRequest := ⟨some "Jane"⟩

/-- What `main` does with the result of its call; a panic exits with status 101. -/
def report : Completion (Except (ConnectError P) EchoResponse) → Finished
  | .returned (.ok res) => ⟨some (res.message.getD ""), 0⟩
  | .returned (.error _) => ⟨none, 1⟩
  | .panicked _ => ⟨none, 101⟩

/-- `main` of the Rust client; `call` is the call of the generated client. -/
def main
    (call : EchoRequest →
      Traced (RetryEvent Unit σ EchoResponse P) σ (Except (ConnectError P) EchoResponse)) :
    Traced (RetryEvent Unit σ EchoResponse P) σ Finished := do
  let result ← withRetry () (call request)
  return report result

end Rust

namespace Python

variable {σ P : Type}

structure EchoRequest where
  message : Option String
  deriving DecidableEq

structure EchoResponse where
  message : Option String
  deriving DecidableEq

def request : EchoRequest := ⟨some "Jane"⟩

/-- `except ConnectError, OSError, TimeoutError, ConnectionError`. -/
def PyException.isCaught : PyException P → Bool
  | .connectError _ _ => true
  | err => err.isTransport

/-- What `main` does with the result of its call; `validate res` tells whether the
validator returns. An exception that is not caught leaves `main`. -/
def report (validate : EchoResponse → Bool) :
    Except (PyException P) EchoResponse → Except (PyException P) Finished
  | .ok res => .ok (if validate res then ⟨some (res.message.getD ""), 0⟩ else ⟨none, 1⟩)
  | .error err => if err.isCaught then .ok ⟨none, 1⟩ else .error err

/-- `main` of the Python client. -/
def main (validate : EchoResponse → Bool)
    (call : EchoRequest →
      Traced (RetryEvent Unit σ EchoResponse P) σ (Except (PyException P) EchoResponse)) :
    Traced (RetryEvent Unit σ EchoResponse P) σ (Except (PyException P) Finished) := do
  let result ← interceptUnarySync () (call request)
  return report validate result

end Python

namespace Client

variable {σ P : Type}

section Written

/-- An outcome as the call of the Go client returns it. -/
def toGo (address : P → ℕ) (o : Outcome (Option String) P) :
    Go.Result Go.Server.EchoResponse P :=
  Outcome.toGo address (o.map Go.Server.OpaqueMessage.build)

def toRust (o : Outcome (Option String) P) : Except (Rust.ConnectError P) Rust.EchoResponse :=
  Outcome.toRust (o.map Rust.EchoResponse.mk)

def toPython (o : Outcome (Option String) P) :
    Except (Python.PyException P) Python.EchoResponse :=
  Outcome.toPython (o.map Python.EchoResponse.mk)

/-- A service as the clients call it: what becomes of the message of a request. -/
abbrev Service (σ P : Type) := Option String → σ → Outcome (Option String) P × σ

def goCall (address : P → ℕ) (service : Service σ P) (req : Go.Server.EchoRequest) :
    Go.UnaryFunc Unit σ Go.Server.EchoResponse P :=
  Traced.lift (through (toGo address) (service req.hiddenMessage))

def rustCall (service : Service σ P) (req : Rust.EchoRequest) :
    Traced (Rust.RetryEvent Unit σ Rust.EchoResponse P) σ
      (Except (Rust.ConnectError P) Rust.EchoResponse) :=
  Traced.lift (through toRust (service req.message))

def pythonCall (service : Service σ P) (req : Python.EchoRequest) :
    Traced (Python.RetryEvent Unit σ Python.EchoResponse P) σ
      (Except (Python.PyException P) Python.EchoResponse) :=
  Traced.lift (through toPython (service req.message))

theorem transient_map {α β : Type} (f : α → β) (o : Outcome α P) :
    transient (o.map f) = transient o := by
  cases o <;> rfl

end Written

section Loops

variable (service : Service σ P) (message : Option String) (s : σ)
  {last : Outcome (Option String) P}
  (hlast : (run () (service message) s).result = .done last)

include hlast

theorem retryUnary_service (address : P → ℕ) (alloc : σ → ℕ × σ) :
    let r := (Go.retryUnary (Go.background alloc) ()
      (Traced.lift (through (toGo address) (service message)))).exec s
    r.result = toGo address last ∧
      r.events.map (Event.map id Go.Duration.seconds id) =
        (run () (service message) s).events.map (Event.map (toGo address) id Empty.elim) ∧
      r.state = (run () (service message) s).state := by
  intro r
  obtain ⟨hresult, hevents, hstate⟩ := run_simulated () (service message) s
    Go.retryPolicy (toGo address) Go.Duration.seconds Empty.elim
    (Go.waitBackoff (P := P) (Go.background alloc)) rfl
    (fun o => (retry_toGo address _).trans (transient_map _ o)) seconds_go (fun _ _ => rfl) hlast
  have hfinish := finish_toGo (ι := Unit) address (Go.background alloc)
    (last.map Go.Server.OpaqueMessage.build)
  simp only [r, Go.retryUnary_eq, Traced.exec_bind]
  rw [hresult, toGo, hfinish]
  exact ⟨rfl, by simpa using hevents, hstate⟩

theorem withRetry_service :
    let r := (Rust.withRetry () (Traced.lift (through toRust (service message)))).exec s
    r.result = .returned (toRust last) ∧
      r.events.map (Event.map id Rust.Duration.seconds id) =
        (run () (service message) s).events.map (Event.map toRust id id) ∧
      r.state = (run () (service message) s).state := by
  intro r
  obtain ⟨hresult, hevents, hstate⟩ := run_simulated () (service message) s
    Rust.retryPolicy toRust Rust.Duration.seconds id Rust.sleep rfl
    (fun o => (retry_toRust _).trans (transient_map _ o)) seconds_rust (fun _ _ => rfl) hlast
  simp only [r, Rust.withRetry_eq, Traced.exec_map, hresult]
  exact ⟨rfl, hevents, hstate⟩

theorem interceptUnarySync_service :
    let r := (Python.interceptUnarySync ()
      (Traced.lift (through toPython (service message)))).exec s
    r.result = toPython last ∧
      r.events.map (Event.map id id id) =
        (run () (service message) s).events.map (Event.map toPython id id) ∧
      r.state = (run () (service message) s).state := by
  intro r
  obtain ⟨hresult, hevents, hstate⟩ := run_simulated () (service message) s
    Python.retryPolicy toPython id id Python.sleep rfl
    (fun o => (retry_toPython _).trans (transient_map _ o)) seconds_python (fun _ _ => rfl) hlast
  simp only [r, Python.interceptUnarySync_eq, Traced.exec_map, hresult]
  exact ⟨rfl, hevents, hstate⟩

end Loops

section Report

theorem report_toGo (address : P → ℕ) (o : Outcome (Option String) P) :
    Go.report (toGo address o) = o.finished := by
  rcases o with e | _ | m <;> rfl

theorem report_toRust (o : Outcome (Option String) P) :
    Rust.report (.returned (toRust o)) = o.finished := by
  rcases o with e | message <;> rfl

variable {validate : Python.EchoResponse → Bool}
  (hvalidate : ∀ res, validate res = true ↔ Acceptable res.message)

include hvalidate

theorem report_toPython_of_acceptable {o : Outcome (Option String) P}
    (h : ∀ message, o = .ok message → Acceptable message) :
    Python.report validate (toPython o) = .ok o.finished := by
  rcases o with e | message
  · rfl
  · have hvalid : validate ⟨message⟩ = true := (hvalidate _).mpr (h message rfl)
    change Except.ok (if validate ⟨message⟩ then _ else _) = _
    rw [if_pos hvalid]
    rfl

theorem report_toPython_of_not_acceptable {message : Option String} (h : ¬ Acceptable message) :
    Python.report validate (toPython (.ok message : Outcome (Option String) P)) =
      .ok ⟨none, 1⟩ := by
  have hinvalid : ¬ validate ⟨message⟩ = true := fun hv => h ((hvalidate _).mp hv)
  change Except.ok (if validate ⟨message⟩ then _ else _) = _
  rw [if_neg hinvalid]

end Report

theorem not_acceptable_getD {message : Option String} (h : ¬ Acceptable message) :
    message.getD "" = "" := by
  cases message with
  | none => rfl
  | some m => simpa [Acceptable] using h

/-- The three programs against one service. They make the calls and the waits of one
trace, up to five attempts with the message `Jane`. The Go and the Rust program report
the outcome of the last one: the text of the reply that they print is its message, and
after an error they print none and exit with status 1. So does the Python program,
unless the reply has no message or an empty one, where it fails and for the others the
text is empty. -/
theorem mains_agree {validate : Python.EchoResponse → Bool}
    (hvalidate : ∀ res, validate res = true ↔ Acceptable res.message) (service : Service σ P)
    (address : P → ℕ) (alloc : σ → ℕ × σ) (s : σ) :
    let go := (Go.main (Go.background alloc) (goCall address service)).exec s
    let rust := (Rust.main (rustCall service)).exec s
    let python := (Python.main validate (pythonCall service)).exec s
    let trace := (run () (service (some "Jane")) s).events
    ∃ pre m s' last, trace = pre ++ [.returned () m s' last] ∧ m < 5 ∧
      trace.filterMap Event.attempt? = List.range (m + 1) ∧
      go.events.map (Event.map id Go.Duration.seconds id) =
        trace.map (Event.map (toGo address) id Empty.elim) ∧
      rust.events.map (Event.map id Rust.Duration.seconds id) =
        trace.map (Event.map toRust id id) ∧
      python.events.map (Event.map id id id) = trace.map (Event.map toPython id id) ∧
      go.state = s' ∧ rust.state = s' ∧ python.state = s' ∧
      go.result = last.finished ∧ rust.result = last.finished ∧
      (python.result = .ok last.finished ↔ ∀ message, last = .ok message → Acceptable message) ∧
      (∀ message, last = .ok message → ¬ Acceptable message →
        go.result = ⟨some "", 0⟩ ∧ python.result = .ok ⟨none, 1⟩) := by
  intro go rust python trace
  obtain ⟨pre, m, last, hm, hlast, hevents, hattempts⟩ := run_last () (service (some "Jane")) s
  obtain ⟨hgo, hgoEvents, hgoState⟩ := retryUnary_service service (some "Jane") s hlast address
    alloc
  obtain ⟨hrust, hrustEvents, hrustState⟩ := withRetry_service service (some "Jane") s hlast
  obtain ⟨hpython, hpythonEvents, hpythonState⟩ :=
    interceptUnarySync_service service (some "Jane") s hlast
  have hgoResult : go.result = last.finished :=
    (congrArg Go.report hgo).trans (report_toGo address last)
  have hpythonResult : python.result = Python.report validate (toPython last) :=
    congrArg (Python.report validate) hpython
  refine ⟨pre, m, (run () (service (some "Jane")) s).state, last, hevents, hm, hattempts, ?_, ?_,
    ?_, hgoState, hrustState, hpythonState, hgoResult,
    (congrArg Rust.report hrust).trans (report_toRust last), ?_, ?_⟩
  · simp only [go, Go.main, Traced.exec_bind, Traced.exec_pure, List.append_nil]
    exact hgoEvents
  · simp only [rust, Rust.main, Traced.exec_bind, Traced.exec_pure, List.append_nil]
    exact hrustEvents
  · simp only [python, Python.main, Traced.exec_bind, Traced.exec_pure, List.append_nil]
    exact hpythonEvents
  · rw [hpythonResult]
    refine ⟨fun hreport message hmessage => ?_, report_toPython_of_acceptable hvalidate⟩
    by_contra hnot
    rw [hmessage, report_toPython_of_not_acceptable hvalidate hnot] at hreport
    cases hreport
  · rintro message rfl hnot
    refine ⟨?_, hpythonResult.trans (report_toPython_of_not_acceptable hvalidate hnot)⟩
    rw [hgoResult, Outcome.finished, not_acceptable_getD hnot]

def acceptable (res : Python.EchoResponse) : Bool :=
  match res.message with
  | none => false
  | some m => m != ""

theorem acceptable_iff (res : Python.EchoResponse) :
    acceptable res = true ↔ Acceptable res.message := by
  obtain ⟨_ | m⟩ := res
  · simp [acceptable, Acceptable]
  · simp [acceptable, Acceptable]

/-- A service that is unavailable once and greets everyone afterwards. -/
def flaky : Service ℕ Unit := fun message n =>
  (if n = 0 then .error (.unavailable, ())
    else .ok (message.map fun m => "Hello, " ++ m ++ "!"), n + 1)

/-- The three programs against a flaky service: after a second attempt all print the
greeting and exit with 0. -/
theorem flaky_mains :
    ((Go.main (Go.background fun n => (n, n)) (goCall (fun _ => 0) flaky)).exec 0).result =
        ⟨some "Hello, Jane!", 0⟩ ∧
      ((Rust.main (rustCall flaky)).exec 0).result = ⟨some "Hello, Jane!", 0⟩ ∧
      ((Python.main acceptable (pythonCall flaky)).exec 0).result =
        .ok ⟨some "Hello, Jane!", 0⟩ := by
  obtain ⟨pre, m, s', last, htrace, -, -, -, -, -, -, -, -, hgo, hrust, hpython, -⟩ :=
    mains_agree acceptable_iff flaky (fun _ => 0) (fun n => (n, n)) 0
  have hflaky : (run () (flaky (some "Jane")) 0).events =
      (run () (flaky (some "Jane")) 0).events.take 5 ++
        [.returned () 1 2 (.ok (some ("Hello, " ++ "Jane" ++ "!")))] := rfl
  cases List.append_inj_right' (hflaky.symm.trans htrace) rfl
  have hgreeting : "Hello, " ++ "Jane" ++ "!" = "Hello, Jane!" := by decide
  have hfinished : Outcome.finished (.ok (some ("Hello, " ++ "Jane" ++ "!")) :
      Outcome (Option String) Unit) = ⟨some "Hello, Jane!", 0⟩ := by
    rw [hgreeting]
    rfl
  rw [hfinished] at hgo hrust hpython
  refine ⟨hgo, hrust, hpython.mpr ?_⟩
  rintro message ⟨⟩
  exact ⟨_, rfl, by decide⟩

end Client

end ConnectExamples
