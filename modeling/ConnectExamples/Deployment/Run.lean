import ConnectExamples.Client.Main
import ConnectExamples.Deployment.Endpoint

/-!
# What holds of a deployment

In every run, however the steps interleave and whatever fails, a caller hears only
faults and the server's reply to its own attempt, no attempt is handled twice, and the
log has the line of every attempt that was handled (`safe`). Every run ends. A caller
that has ended did what each of the three clients does on the outcomes that it heard,
and nobody can tell which server was deployed.
-/

namespace ConnectExamples

namespace Deployment

open Retry Rpc Server Tracing Transition

variable {ι H P Q τ : Type} [DecidableEq ι] {E : Endpoint H P τ} {callers : ι → Caller}
  {D D' : Deployment ι Q τ} {a : Action ι (Outcome (Option String) Q)}
  {as : List (Action ι (Outcome (Option String) Q))}

section Net

/-- The line that an attempt with this message leaves in the log. -/
def line (message : Option String) : LogLine :=
  if message = none ∨ message = some "" then
    ⟨"/api.v1.EchoService/Echo", .error, some Code.invalidArgument.number⟩
  else ⟨"/api.v1.EchoService/Echo", .info, none⟩

theorem Step.net (h : Step E callers D a D') :
    Rpc.Step Client.retryPolicy (fun i => Deserves (callers i).message) Failed
      D.net a D'.net := by
  cases h with
  | @serve i k o N hsaid hnet =>
      rw [E.answers, Option.some_inj] at hsaid
      refine hnet.mono fun j o' h => ?_
      rw [h.1, h.2]
      exact deserves_of_said hsaid
  | other hnet => exact hnet.mono fun j o h => h.elim

theorem runs_net (h : Runs (Step E callers) D as D') :
    Runs (Rpc.Step Client.retryPolicy (fun i => Deserves (callers i).message) Failed)
      D.net as D'.net :=
  h.map fun _ _ _ hstep => hstep.net

/-- Every attempt that is handled leaves its line in the log. -/
def Logs (callers : ι → Caller) (D : Deployment ι Q τ) : Prop :=
  D.log = D.net.handled.map fun x => line (callers x.1).message

theorem Step.logs (h : Step E callers D a D') (hlog : Logs callers D) : Logs callers D' := by
  unfold Logs at hlog ⊢
  cases h with
  | @serve i k o N hsaid hnet =>
      rw [hnet.handled_handle, List.map_append, ← hlog, E.logs]
      exact congrArg _ (Request.logged_echo (callers i).message)
  | other hnet =>
      rw [hnet.handled_eq]
      exact hlog

theorem runs_logs {t : τ} (h : Runs (Step E callers) (start t) as D) : Logs callers D :=
  h.invariant (fun _ _ _ hstep => hstep.logs) rfl

/-- What holds of a deployment at every instant. -/
def Sound (callers : ι → Caller) (D : Deployment ι Q τ) : Prop :=
  Inv Client.retryPolicy (fun i => Deserves (callers i).message) Failed D.net

theorem Step.sound (h : Step E callers D a D') (hsound : Sound callers D) : Sound callers D' :=
  h.net.inv hsound

theorem runs_sound {t : τ} (h : Runs (Step E callers) (start t) as D) : Sound callers D :=
  inv_of_runs (runs_net h)

end Net

section Greeted

/-- The Go server, with a validator that evaluates the rules of the field. -/
def goServer : Endpoint Unit Unit Unit :=
  Go.Server.endpoint validates_validateRules ⟨fun _ => 0, id⟩

def jane : Caller :=
  ⟨some "Jane", fun _ => ⟨"HTTP/1.1", ⟨"127.0.0.1:9", "connect"⟩, fun _ => [], "POST"⟩,
    fun _ => ⟨none, none, fun _ => none⟩⟩

def greeting : Outcome (Option String) Unit := .ok (some "Hello, Jane!")

/-- One caller calls, the server handles the request, and the reply is delivered. -/
theorem greeted : ∃ as D,
    Runs (Step goServer fun _ : Unit => jane) (start ()) as D ∧
      D.net.phase () = .ended 0 greeting := by
  have hanswer : (Request.echo (some "Jane") : Request Unit Unit).answer = .ok (.echo (some
      "Hello, Jane!")) := Request.answer_echo_of_ne (by decide)
  have hsaid : (goServer.serve (jane.incoming 0) ()).1 = some greeting.said := by
    rw [goServer.answers]
    exact congrArg (fun a => some (Except.mapError Code.number a)) hanswer
  have hrequest : [((), 0)] = [] ++ ((), 0) :: [] := rfl
  have hreply : [((), 0, greeting)] = [] ++ ((), 0, greeting) :: [] := rfl
  exact ⟨[.call (), .handle () 0 greeting, .deliver () 0 greeting], _,
    .cons (.other (.call rfl)) (.cons (.serve hsaid (.handle hrequest ⟨rfl, rfl⟩))
      (.cons (.other (.deliver hreply rfl)) (.nil _))), rfl⟩

end Greeted

section Safety

/-- What callers hear, what is handled and what is logged, at every instant of every run.
The outcomes that caller `i` has heard led it to its phase; those without an error are
the greeting of its own message, in reply to the very attempt, which the server has
handled by then. No attempt is handled twice, a caller has at most five, and the log has
one line for each attempt that was handled, in this order, at error level exactly where
the message is absent or empty. -/
theorem safe {t : τ} (h : Runs (Step E callers) (start t) as D) :
    (∀ i, ∃ os, Client.retryPolicy.Heard os (D.net.phase i) ∧
      ∀ k reply, os[k]? = some (.ok reply) → (i, k) ∈ D.net.handled ∧
        ∃ text, (callers i).message = some text ∧ text ≠ "" ∧
          reply = some ("Hello, " ++ text ++ "!")) ∧
      D.net.handled.Nodup ∧
      (∀ i k, (i, k) ∈ D.net.handled → k < 5) ∧
      (∀ i, D.net.handled.countP (fun x => x.1 = i) ≤ 5) ∧
      D.log = D.net.handled.map fun x =>
        if (callers x.1).message = none ∨ (callers x.1).message = some "" then
          ⟨"/api.v1.EchoService/Echo", .error, some Code.invalidArgument.number⟩
        else ⟨"/api.v1.EchoService/Echo", .info, none⟩ := by
  have hinv : Inv _ _ _ D.net := runs_sound h
  refine ⟨fun i => ?_, (List.nodup_append.mp hinv.once).2.1, fun i k => hinv.handled_lt,
    hinv.countP_handled_le, runs_logs h⟩
  obtain ⟨os, hheard, hgenuine⟩ := hinv.told i
  refine ⟨os, hheard, fun k reply hk => ?_⟩
  rcases hgenuine k _ hk with ⟨e, he⟩ | ⟨hdeserves, hmem⟩
  · cases he
  · exact ⟨hmem, hdeserves⟩

/-- A caller that was greeted, seen from the log of the server. -/
theorem safe_greeted : ∃ D : Deployment Unit Unit Unit,
    D.net.phase () = .ended 0 greeting ∧ D.net.handled.countP (fun x => x.1 = ()) ≤ 5 := by
  obtain ⟨as, D, hruns, hended⟩ := greeted
  exact ⟨D, hended, (safe hruns).2.2.2.1 ()⟩

end Safety

section Progress

variable [Inhabited Q]

theorem exists_said (message : Option String) :
    ∃ o : Outcome (Option String) Q,
      (Request.echo message : Request H P).answer.mapError Code.number = o.said := by
  by_cases hmessage : message = none ∨ message = some ""
  · refine ⟨.error (.invalidArgument, default), ?_⟩
    rw [(Request.answer_echo_eq_error_iff message).mpr hmessage]
    rfl
  · obtain ⟨text, rfl⟩ := Option.ne_none_iff_exists'.mp (not_or.mp hmessage).1
    have hne : text ≠ "" := by simpa using hmessage
    refine ⟨.ok (some ("Hello, " ++ text ++ "!")), ?_⟩
    rw [Request.answer_echo_of_ne hne]
    rfl

/-- The server can answer every request that is on its way. -/
theorem exists_serve {i : ι} {k : ℕ} (h : (i, k) ∈ D.net.requests) :
    ∃ o D', Step E callers D (.handle i k o) D' := by
  obtain ⟨o, ho⟩ := exists_said (H := H) (P := P) (Q := Q) (callers i).message
  obtain ⟨pre, post, hsplit⟩ := List.append_of_mem h
  refine ⟨o, _, .serve ?_ (.handle hsplit ⟨rfl, rfl⟩)⟩
  rw [E.answers]
  exact congrArg some ho

/-- Nothing is left to do exactly when every caller has ended and no message is in
flight. -/
theorem stuck_step_iff :
    Stuck (Step E callers) D ↔
      (∀ i, ∃ k o, D.net.phase i = .ended k o) ∧ D.net.requests = [] ∧ D.net.replies = [] := by
  have hfailed : ∃ o : Outcome (Option String) Q, Failed o :=
    ⟨.error (.unknown, default), _, rfl⟩
  constructor
  · intro h
    have hnet : Stuck (Rpc.Step Client.retryPolicy (fun _ _ => False) Failed) D.net :=
      fun a N hnet => h a _ (.other hnet)
    exact (stuck_iff hfailed).mp hnet
  · intro h a D' hstep
    exact (stuck_iff hfailed).mpr h a D'.net hstep.net

/-- No run goes on for ever: with `n` callers it takes at most `25 * n` steps, whatever is
lost or fails, and each can be continued until every caller has ended and no message is
in flight. A deployment that cannot take a step is in such a state, and a request never
waits for a server that has no answer. -/
theorem ends [Fintype ι] {t : τ} (h : Runs (Step E callers) (start t) as D) :
    as.length ≤ 25 * Fintype.card ι ∧
      (∃ as' D', Runs (Step E callers) D as' D' ∧
        (∀ i, ∃ k o, D'.net.phase i = .ended k o) ∧ D'.net.requests = [] ∧
          D'.net.replies = []) ∧
      (Stuck (Step E callers) D ↔
        (∀ i, ∃ k o, D.net.phase i = .ended k o) ∧ D.net.requests = [] ∧
          D.net.replies = []) ∧
      ∀ i k, (i, k) ∈ D.net.requests → ∃ o D', Step E callers D (.handle i k o) D' := by
  refine ⟨runs_length_le (runs_net h), ?_, stuck_step_iff, fun i k => exists_serve⟩
  have hlt (D₁ : Deployment ι Q τ) (a) (D₂ : Deployment ι Q τ) (hstep : Step E callers D₁ a D₂)
      (hsound : Sound callers D₁) :
      potential Client.retryPolicy D₂.net < potential Client.retryPolicy D₁.net :=
    hstep.net.potential_lt hsound
  obtain ⟨as', D', hruns, hstuck⟩ :=
    Runs.exists_stuck (fun _ _ _ hstep hsound => hstep.sound hsound) hlt D (runs_sound h)
  exact ⟨as', D', hruns, stuck_step_iff.mp hstuck⟩

theorem ends_greeted : ∃ (as : List (Action Unit (Outcome (Option String) Unit))) (D : _),
    Runs (Step goServer fun _ => jane) (start ()) as D ∧ as.length ≤ 25 := by
  obtain ⟨as, D, hruns, -⟩ := greeted
  exact ⟨as, D, hruns, (ends hruns).1⟩

end Progress

section Clients

open Client

variable {t : τ} (h : Runs (Step E callers) (start t) as D) {i : ι} {k : ℕ}
  {o : Outcome (Option String) Q} (hended : D.net.phase i = .ended k o)

include h hended

/-- What a caller has heard by the time it ends. -/
theorem heard_of_ended :
    ∃ os, os.length = k + 1 ∧ os[k]? = some o ∧
      (∀ l o', os[l]? = some o' →
        Failed o' ∨ Deserves (callers i).message o' ∧ (i, l) ∈ D.net.handled) ∧
      Client.retryPolicy.Heard os (.ended k o) := by
  obtain ⟨os, hheard, hgenuine⟩ := (runs_sound h).told i
  rw [hended] at hheard
  obtain ⟨init, rfl, rfl, -⟩ := hheard.records
  exact ⟨init ++ [o], by simp, by simp, hgenuine, hheard⟩

/-- A caller that has ended did what each client does. Some outcomes, one for each of its
attempts and each a fault or the server's reply to this attempt, make the loops of the
three clients run to the same end: `k + 1` attempts, and the outcome `o` returned. -/
theorem clients_run (address : Q → ℕ)
    (alloc : List (Outcome (Option String) Q) → ℕ × List (Outcome (Option String) Q)) :
    ∃ os, os.length = k + 1 ∧
      (∀ l o', os[l]? = some o' →
        Failed o' ∨ Deserves (callers i).message o' ∧ (i, l) ∈ D.net.handled) ∧
      let go := (Go.retryUnary (Go.background alloc) ()
        (Traced.lift (through (toGo address) (Policy.script o)))).exec os
      let rust := (Rust.withRetry () (Traced.lift (through toRust (Policy.script o)))).exec os
      let python := (Python.interceptUnarySync ()
        (Traced.lift (through toPython (Policy.script o)))).exec os
      go.result = toGo address o ∧ rust.result = .returned (toRust o) ∧
        python.result = toPython o ∧
        go.events.filterMap Event.attempt? = List.range (k + 1) ∧
        rust.events.filterMap Event.attempt? = List.range (k + 1) ∧
        python.events.filterMap Event.attempt? = List.range (k + 1) ∧
        go.state = [] ∧ rust.state = [] ∧ python.state = [] := by
  obtain ⟨os, hlength, -, hgenuine, hheard⟩ := heard_of_ended h hended
  obtain ⟨hrun, hstate, hattempts⟩ :=
    retryPolicy.run_script () sleep (fun _ _ => rfl) o hheard
  let service : Service (List (Outcome (Option String) Q)) Q := fun _ => Policy.script o
  have hlast : (run () (service none) os).result = .done o := hrun
  obtain ⟨hgo, hgoEvents, hgoState⟩ := retryUnary_service service none os hlast address alloc
  obtain ⟨hrust, hrustEvents, hrustState⟩ := withRetry_service service none os hlast
  obtain ⟨hpython, hpythonEvents, hpythonState⟩ :=
    interceptUnarySync_service service none os hlast
  exact ⟨os, hlength, hgenuine, hgo, hrust, hpython,
    (Event.attempts_eq hgoEvents).trans hattempts,
    (Event.attempts_eq hrustEvents).trans hattempts,
    (Event.attempts_eq hpythonEvents).trans hattempts,
    hgoState.trans hstate, hrustState.trans hstate, hpythonState.trans hstate⟩

omit h hended in
theorem clients_run_greeted : ∃ os : List (Outcome (Option String) Unit), os.length = 1 ∧
    ((Rust.withRetry () (Traced.lift (through toRust (Policy.script greeting)))).exec os).result =
      .returned (toRust greeting) := by
  obtain ⟨as, D, hruns, hended⟩ := greeted
  obtain ⟨os, hlength, -, -, hrust, -⟩ :=
    clients_run hruns hended (fun _ => 0) fun os => (0, os)
  exact ⟨os, hlength, hrust⟩

/-- A caller with the message `Jane` that has ended did what the main function of each
client does. The three programs finish alike: they print the greeting and exit with
status 0, and then the server has handled the last attempt and logged it without an
error; or they print nothing and exit with status 1, and then the last attempt failed.
The Python client never rejects a reply of the server. -/
theorem mains_run (hjane : (callers i).message = some "Jane")
    {validate : Python.EchoResponse → Bool}
    (hvalidate : ∀ res, validate res = true ↔ Acceptable res.message) (address : Q → ℕ)
    (alloc : List (Outcome (Option String) Q) → ℕ × List (Outcome (Option String) Q)) :
    ∃ os, os.length = k + 1 ∧
      (∀ l o', os[l]? = some o' →
        Failed o' ∨ Deserves (some "Jane") o' ∧ (i, l) ∈ D.net.handled) ∧
      ∀ service : Service (List (Outcome (Option String) Q)) Q,
        service (some "Jane") = Policy.script o →
        let go := ((Go.main (Go.background alloc) (goCall address service)).exec os).result
        let rust := ((Rust.main (rustCall service)).exec os).result
        let python := ((Python.main validate (pythonCall service)).exec os).result
        rust = go ∧ python = .ok go ∧
          (go = ⟨some "Hello, Jane!", 0⟩ ∧ (i, k) ∈ D.net.handled ∧
              ⟨"/api.v1.EchoService/Echo", .info, none⟩ ∈ D.log ∨
            go = ⟨none, 1⟩ ∧ Failed o) := by
  obtain ⟨os, hlength, hlast, hgenuine, hheard⟩ := heard_of_ended h hended
  rw [hjane] at hgenuine
  refine ⟨os, hlength, hgenuine, fun service hservice => ?_⟩
  intro go rust python
  have hrun : (run () (service (some "Jane")) os).result = .done o := by
    rw [hservice]
    exact (retryPolicy.run_script () sleep (fun _ _ => rfl) o hheard).1
  have hgo : go = o.finished :=
    (congrArg Go.report (retryUnary_service service _ os hrun address alloc).1).trans
      (report_toGo address o)
  have hrust : rust = o.finished :=
    (congrArg Rust.report (withRetry_service service _ os hrun).1).trans (report_toRust o)
  have hpython : python = Python.report validate (toPython o) :=
    congrArg (Python.report validate) (interceptUnarySync_service service _ os hrun).1
  have hacceptable (message) (ho : o = .ok message) : Acceptable message := by
    rcases hgenuine k o hlast with ⟨e, he⟩ | ⟨hdeserves, -⟩
    · cases ho.symm.trans he
    · rw [ho] at hdeserves
      obtain ⟨text, -, -, hreply⟩ := hdeserves
      exact ⟨_, hreply, fun hempty => by simpa using congrArg String.toList hempty⟩
  rw [report_toPython_of_acceptable hvalidate hacceptable] at hpython
  refine ⟨hrust.trans hgo.symm, hpython.trans (congrArg Except.ok hgo.symm), ?_⟩
  rcases hgenuine k o hlast with ⟨e, rfl⟩ | ⟨hdeserves, hmem⟩
  · exact .inr ⟨hgo, e, rfl⟩
  · rcases o with e | reply
    · exact .inr ⟨hgo, e, rfl⟩
    · obtain ⟨text, htext, -, rfl⟩ := hdeserves
      obtain rfl := Option.some.inj htext
      have hlog : D.log = _ := runs_logs h
      refine .inl ⟨hgo, hmem, ?_⟩
      rw [hlog]
      exact List.mem_map.mpr ⟨(i, k), hmem, by simp [line, hjane]⟩

omit h hended in
theorem mains_run_greeted : ∃ os : List (Outcome (Option String) Unit), os.length = 1 ∧
    ((Rust.main (rustCall fun _ => Policy.script greeting)).exec os).result =
      ((Go.main (Go.background fun os => (0, os))
        (goCall (fun _ => 0) fun _ => Policy.script greeting)).exec os).result := by
  obtain ⟨as, D, hruns, hended⟩ := greeted
  obtain ⟨os, hlength, -, hmains⟩ :=
    mains_run hruns hended rfl acceptable_iff (fun _ => 0) fun os => (0, os)
  exact ⟨os, hlength, (hmains (fun _ => Policy.script greeting) rfl).1⟩

end Clients

section Servers

/-- One step of a deployment, with another server. -/
theorem Step.exchange {τ' : Type} {E' : Endpoint H P τ'} (h : Step E callers D a D') (s : τ') :
    ∃ s', Step E' callers ⟨D.net, D.log, s⟩ a ⟨D'.net, D'.log, s'⟩ := by
  cases h with
  | @serve i k o N hsaid hnet =>
      have hanswer : (E'.serve ((callers i).incoming k) s).1 = some o.said := by
        rw [E'.answers, ← E.answers _ D.server]
        exact hsaid
      have hlog : (E.serve ((callers i).incoming k) D.server).2.1 =
          (E'.serve ((callers i).incoming k) s).2.1 := by
        rw [E.logs, E'.logs]
      rw [hlog]
      exact ⟨_, .serve hanswer hnet⟩
  | other hnet => exact ⟨s, .other hnet⟩

/-- Two deployments that nobody can tell apart but by the state of the server. -/
def Alike {τ' : Type} (D : Deployment ι Q τ) (F : Deployment ι Q τ') : Prop :=
  F.net = D.net ∧ F.log = D.log

theorem runs_exchange {τ' : Type} {E' : Endpoint H P τ'} (h : Runs (Step E callers) D as D')
    (s : τ') :
    ∃ s', Runs (Step E' callers) ⟨D.net, D.log, s⟩ as ⟨D'.net, D'.log, s'⟩ := by
  have hsim (D₁ : Deployment ι Q τ) (F : Deployment ι Q τ') (a) (D₂) (halike : Alike D₁ F)
      (hstep : Step E callers D₁ a D₂) : ∃ F', Step E' callers F a F' ∧ Alike D₂ F' := by
    obtain ⟨net, log, t⟩ := F
    obtain ⟨rfl, rfl⟩ := halike
    obtain ⟨s', hstep'⟩ := hstep.exchange t
    exact ⟨_, hstep', rfl, rfl⟩
  have hstart : Alike D (⟨D.net, D.log, s⟩ : Deployment ι Q τ') := ⟨rfl, rfl⟩
  obtain ⟨⟨net, log, s'⟩, hruns, rfl, rfl⟩ := h.simulate hsim hstart
  exact ⟨s', hruns⟩

variable {σ : Type}

/-- Nobody can tell which server is deployed. With the Go server and with the Rust server
the same sequences of steps are possible, and they lead to the same phases of the
callers, the same messages in flight, the same handled attempts and the same log. -/
theorem go_iff_rust
    {validate : Go.Server.Interceptor σ Go.Server.EchoRequest Go.Server.EchoResponse P}
    (hgo : Go.Server.Validates Go.Server.echoRequestRules validate)
    {connectImpl : Rust.ConnectImpl τ P} (hrust : Rust.ValidatesFirst connectImpl)
    (goMachine : Machine σ) (rustMachine : Machine τ) (callers : ι → Caller) (s : σ) (t : τ)
    (as : List (Action ι (Outcome (Option String) Q))) (net : Net ι (Outcome (Option String) Q))
    (log : List LogLine) :
    (∃ s', Runs (Step (Go.Server.endpoint (H := H) hgo goMachine) callers) (start s) as
        ⟨net, log, s'⟩) ↔
      ∃ t', Runs (Step (Rust.endpoint (H := H) hrust rustMachine) callers) (start t) as
        ⟨net, log, t'⟩ :=
  ⟨fun ⟨_, hruns⟩ => runs_exchange hruns t, fun ⟨_, hruns⟩ => runs_exchange hruns s⟩

theorem go_iff_rust_greeted : ∃ (as : List (Action Unit (Outcome (Option String) Unit)))
    (net : _) (log : _) (t' : Unit),
    Runs (Step (Rust.endpoint (H := Unit) validatesFirst_validateFirst ⟨fun _ => 0, id⟩)
      fun _ => jane) (start ()) as ⟨net, log, t'⟩ ∧ net.phase () = .ended 0 greeting := by
  obtain ⟨as, D, hruns, hended⟩ := greeted
  obtain ⟨t', hrust⟩ := (go_iff_rust validates_validateRules validatesFirst_validateFirst
    ⟨fun _ => 0, id⟩ ⟨fun _ => 0, id⟩ (fun _ => jane) () () as D.net D.log).mp ⟨D.server, hruns⟩
  exact ⟨as, D.net, D.log, t', hrust, hended⟩

end Servers

end Deployment

end ConnectExamples
