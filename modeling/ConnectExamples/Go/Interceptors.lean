import ConnectExamples.Go.RetryUnary
import ConnectExamples.Retry.Nested

/-!
# Aborted retries in the Go client

When `waitBackoff` is interrupted, `retryUnary` returns the last error joined
with `errRetryAborted` and the context error. The join keeps a retryable Connect
code or an `*net.OpError` at the front of the tree, and it is final all the same:
`isRetryable` looks for a context error first and at any depth. A stack of retry
interceptors therefore passes an abort outwards without another call or wait:
what the stack returns is read off the interrupted pause and the attempt before
it (`Aborted`), through every layer around them (`settled_interceptorStack`).
-/

namespace ConnectExamples

namespace Go

open Retry Tracing TreeSearch

section AbortError

variable {P : Type} (inner outer : ℕ) (last : Error P) (e : ContextError)

/-- What `retryUnary` returns when `waitBackoff` was interrupted. -/
def abortError : Error P :=
  .node ⟨.other outer, .plain, fun _ => false⟩ [last, waitError inner e]

theorem errorsJoin_abortError :
    errorsJoin outer [some last, some (waitError inner e)] =
      some (abortError inner outer last e) := rfl

theorem errorsIs_contextError (target : ErrorValue) :
    errorsIs (e.toError : Error P) target = true ↔
      target.comparable = true ∧ target = e.value := by
  cases e with
  | canceled =>
      simp [ContextError.toError, canceled, errorsIs_node, ErrorNode.matches,
        ContextError.value, @eq_comm _ target]
  | deadlineExceeded =>
      simp [ContextError.toError, deadlineExceeded, errorsIs_node, ErrorNode.matches,
        ContextError.value, @eq_comm _ target]

theorem errorsIs_waitError (target : ErrorValue) :
    errorsIs (waitError inner e : Error P) target = true ↔
      target.comparable = true ∧
        (target = .retryAborted ∨ target = e.value ∨ target = .other inner) := by
  simp only [waitError, errorsIs_node, List.mem_cons, List.not_mem_nil, or_false,
    exists_eq_or_imp, exists_eq_left, errRetryAborted, errorsIs_contextError,
    ErrorNode.matches, Bool.or_false, Bool.and_eq_true, beq_iff_eq, false_and]
  tauto

/-- What `errors.Is` finds in an aborted retry: what it finds in the last error,
the sentinel, the context error, and the two joins. -/
theorem errorsIs_abortError (target : ErrorValue) :
    errorsIs (abortError inner outer last e) target = true ↔
      errorsIs last target = true ∨
        (target.comparable = true ∧
          (target = .retryAborted ∨ target = e.value ∨ target = .other inner ∨
            target = .other outer)) := by
  simp only [abortError, errorsIs_node, List.mem_cons, List.not_mem_nil, or_false,
    exists_eq_or_imp, exists_eq_left, errorsIs_waitError, ErrorNode.matches,
    Bool.or_false, Bool.and_eq_true, beq_iff_eq]
  tauto

theorem codeOf_abortError : codeOf (abortError inner outer last e) = codeOf last := by
  have hwait : errorsAsType asConnectError (waitError inner e : Error P) = none := by
    cases e <;> rfl
  have hjoin : errorsAsType asConnectError (abortError inner outer last e) =
      errorsAsType asConnectError last := by
    rw [abortError, errorsAsType_join asConnectError outer _ rfl]
    simp only [List.findSome?_cons, hwait, List.findSome?_nil]
    cases errorsAsType asConnectError last <;> rfl
  unfold codeOf
  rw [hjoin]

theorem isRetryable_abortError :
    isRetryable (some (abortError inner outer last e)) = false := by
  refine isRetryable_of_matchesContext ?_
  unfold matchesContext
  rw [Bool.or_eq_true, errorsIs_abortError, errorsIs_abortError]
  cases e <;> simp [ErrorValue.comparable, ContextError.value]

/-- `err` reports that the context error `e` cut short the pause after `last`. It
is the join of `last` and the join of the sentinel with `e`, which sit at `outer`
and `inner`; `errors.Is` finds in it what it finds in `last`, the sentinel, `e`
and the two joins; it has the code of `last`, and it is not retried. -/
structure Reports (err : Error P) : Prop where
  joined : errorsJoin outer
    [some last, errorsJoin inner [some errRetryAborted, some e.toError]] = some err
  aborted : errorsIs err .retryAborted = true
  context : errorsIs err e.value = true
  kept : ∀ target, errorsIs last target = true → errorsIs err target = true
  nothingElse : ∀ target, target.comparable = true → errorsIs err target = true →
    errorsIs last target = true ∨ target = .retryAborted ∨ target = e.value ∨
      target = .other inner ∨ target = .other outer
  code : codeOf err = codeOf last
  notRetryable : isRetryable (some err) = false

theorem reports_abortError : Reports inner outer last e (abortError inner outer last e) where
  joined := errorsJoin_abortError inner outer last e
  aborted := by
    rw [errorsIs_abortError]
    exact .inr ⟨rfl, .inl rfl⟩
  context := by
    rw [errorsIs_abortError]
    exact .inr ⟨by cases e <;> rfl, .inr (.inl rfl)⟩
  kept target htarget := by
    rw [errorsIs_abortError]
    exact .inl htarget
  nothingElse target _ htarget := by
    rw [errorsIs_abortError] at htarget
    exact htarget.imp_right And.right
  code := codeOf_abortError inner outer last e
  notRetryable := isRetryable_abortError inner outer last e

end AbortError

section Stack

variable {ι σ α P : Type}

def newRetryInterceptor (w : World σ) (layer : ι) (next : UnaryFunc ι σ α P) :
    UnaryFunc ι σ α P :=
  retryUnary w layer next

/-- `n` retry interceptors around `base`, the innermost being layer 0. -/
def interceptorStack (w : World σ) (base : UnaryFunc ℕ σ α P) : ℕ → UnaryFunc ℕ σ α P
  | 0 => base
  | n + 1 => newRetryInterceptor w n (interceptorStack w base n)

/-- An interrupted pause of a layer, with the attempt before it. -/
abbrev Interrupted (w : World σ) (α P : Type) :=
  Interruption ℕ (retryPolicy : Policy (Result α P) Duration) (waitBackoff (P := P) w)

/-- `o` and `t` are what the layer of `c` returns: the error of the attempt before
the pause, joined with what `waitBackoff` made of the context error. -/
def Aborted (w : World σ) (c : Interrupted w α P) (o : Result α P) (t : σ) : Prop :=
  ∃ res last e, c.outcome = (res, some last) ∧
    (w.select (initialBackoff <<< c.attempt) c.paused).1 = some e ∧
    o = (none, some (abortError
      (w.alloc (w.select (initialBackoff <<< c.attempt) c.paused).2).1 (w.alloc c.woke).1
      last e)) ∧
    t = (w.alloc c.woke).2

/-- In a stack of `n` layers, `c` passes through the layers `is` around its own. -/
def Passed (w : World σ) (n : ℕ) (c : Interrupted w α P) (is : List ℕ) (o : Result α P)
    (t : σ) : Prop :=
  c.loop < n ∧ is = List.range' (c.loop + 1) (n - (c.loop + 1)) ∧ Aborted w c o t

section Layer

variable (w : World σ)

theorem aborted_finish (c : Interrupted w α P) :
    Aborted w c ((finish (ι := ℕ) w (.interrupted c.outcome c.cause)).exec c.woke).result
      ((finish (ι := ℕ) w (.interrupted c.outcome c.cause)).exec c.woke).state := by
  obtain ⟨layer, k, t, ⟨res, _ | last⟩, t', waitErr, hretry, hk, hpause⟩ := c
  · cases hretry
  · obtain ⟨e, hselect, rfl, rfl⟩ := waitBackoff_eq_some hpause
    exact ⟨res, last, e, rfl, hselect, rfl, rfl⟩

theorem retry_eq_false_of_aborted {c : Interrupted w α P} {o : Result α P} {t : σ}
    (h : Aborted w c o t) : retryPolicy.retry o = false := by
  obtain ⟨res, last, e, -, -, rfl, -⟩ := h
  exact isRetryable_abortError _ _ last e

/-- A layer around settled attempts is settled: an abort of an inner layer is
passed on, and the layer's own abort is its last event. -/
theorem settled_retryUnary (n : ℕ) (next : UnaryFunc ℕ σ α P)
    (hnext : ∀ s, Settled (Passed w n) (next.exec s)) (s : σ) :
    Settled (Passed w (n + 1)) ((retryUnary w n next).exec s) := by
  have hloop := Policy.loop_nested retryPolicy (waitBackoff w) n next hnext
    (fun _ _ _ _ h => retry_eq_false_of_aborted w h.2.2) 0 (maxRetries - 1) rfl s
  change LoopSettled _ _ ((retryPolicy.run n next (waitBackoff w)).exec s) at hloop
  rw [Settled, retryUnary_events, retryUnary_eq, Traced.exec_bind]
  unfold LoopSettled at hloop
  cases hresult : ((retryPolicy.run n next (waitBackoff w)).exec s).result with
  | done o =>
      rw [hresult] at hloop
      rcases hloop with hquiet | ⟨c, is, hends, hlt, rfl, haborted⟩
      · exact .inl hquiet
      · -- the abort of an inner layer leaves this one as it came
        have hpassed : List.range' (c.loop + 1) (n - (c.loop + 1)) ++ [n] =
            List.range' (c.loop + 1) (n + 1 - (c.loop + 1)) := by
          rw [show n + 1 - (c.loop + 1) = n - (c.loop + 1) + 1 by omega, List.range'_concat,
            show c.loop + 1 + 1 * (n - (c.loop + 1)) = n by omega]
        rw [hpassed] at hends
        obtain ⟨res, last, e, houtcome, hselect, rfl, ht⟩ := haborted
        exact .inr ⟨c, _, hends, hlt.trans n.lt_succ_self, rfl, res, last, e, houtcome, hselect,
          rfl, ht⟩
  | interrupted o waitErr =>
      rw [hresult] at hloop
      obtain ⟨c, hends, rfl, rfl, rfl, hwoke⟩ := hloop
      have haborted := aborted_finish w c
      rw [hwoke] at haborted
      refine .inr ⟨c, [], hends.finish _ _, c.loop.lt_succ_self, ?_, haborted⟩
      rw [Nat.sub_self, List.range'_zero]

variable (env : σ → Result α P × σ)

/-- A stack of interceptors around a transport that logs nothing is settled. -/
theorem settled_interceptorStack (n : ℕ) (s : σ) :
    Settled (Passed w n) ((interceptorStack w (Traced.lift env) n).exec s) := by
  induction n generalizing s with
  | zero => exact .inl (by simp [interceptorStack, Quiet])
  | succ n ih => exact settled_retryUnary w n _ ih s

theorem answered_interceptorStack (n : ℕ) (s : σ) :
    Answered (retryPolicy : Policy (Result α P) Duration) (waitBackoff (P := P) w)
      ((interceptorStack w (Traced.lift env) n).exec s).events := by
  induction n generalizing s with
  | zero => simp [interceptorStack, Answered]
  | succ n ih =>
      change Answered _ _ ((retryUnary w n _).exec s).events
      rw [retryUnary_events]
      exact Policy.loop_answered retryPolicy (waitBackoff w) n _ ih 0 (maxRetries - 1) rfl s

/-- The first attempt goes through every layer to the transport. -/
theorem interceptorStack_start (n : ℕ) (s : σ) :
    ∃ rest, ((interceptorStack w (Traced.lift env) (n + 1)).exec s).events =
      (List.range (n + 1)).reverse.map (Event.call · 0 s) ++
        .returned 0 0 (env s).2 (env s).1 :: rest := by
  have hlayer (n : ℕ) : ∃ rest, ((interceptorStack w (Traced.lift env) (n + 1)).exec s).events =
      ((observeCall n 0 (interceptorStack w (Traced.lift env) n)).exec s).events ++ rest := by
    change ∃ rest, ((retryUnary w n _).exec s).events = _
    rw [retryUnary_events]
    exact Policy.loop_start retryPolicy (waitBackoff w) n _ 0 (maxRetries - 1) s
  induction n with
  | zero =>
      obtain ⟨rest, hrest⟩ := hlayer 0
      exact ⟨rest, by rw [hrest]; rfl⟩
  | succ n ih =>
      obtain ⟨inner, hinner⟩ := ih
      obtain ⟨rest, hrest⟩ := hlayer (n + 1)
      rw [hrest, exec_observeCall, hinner, List.range_succ (n := n + 1), List.reverse_append]
      simp only [List.append_assoc, List.cons_append, List.reverse_singleton, List.map_cons,
        List.nil_append]
      exact ⟨_, rfl⟩

end Layer

/-- Aborted retries in a stack of `n` interceptors, whatever the transport and the
context do. The first attempt reaches the transport, and every attempt of any layer
but its last that fails with a retryable error is followed by `waitBackoff`. Where
this is interrupted, the whole stack returns the error `last` of the attempt right
before the pause, joined with the sentinel and the context error `e` that ended it:
`errors.Is` finds in it what it finds in `last`, the sentinel, `e` and the two joins,
it has the code of `last`, and it is not retryable. Each layer around the pause
returns it, from the inside out, and nothing else follows: no call and no wait. -/
theorem abort_faithful_and_final (w : World σ) (env : σ → Result α P × σ) (n : ℕ) (s : σ) :
    (0 < n → ∃ rest, ((interceptorStack w (Traced.lift env) n).exec s).events =
        (List.range n).reverse.map (Event.call · 0 s) ++
          .returned 0 0 (env s).2 (env s).1 :: rest) ∧
      (∀ pre post layer k t res last,
        ((interceptorStack w (Traced.lift env) n).exec s).events =
            pre ++ .returned layer k t (res, some last) :: post →
          isRetryable (some last) = true → k + 1 < maxRetries →
            ∃ waitErr t' rest, waitBackoff w (initialBackoff <<< k) t = (waitErr, t') ∧
              post = .wait layer k t (initialBackoff <<< k) ::
                .woke layer k t' waitErr :: rest) ∧
      ∀ pre post layer k t' waitErr,
        ((interceptorStack w (Traced.lift env) n).exec s).events =
            pre ++ .woke layer k t' (some waitErr) :: post →
          ∃ before t res last e err,
            pre = before ++ [.returned layer k t (res, some last),
              .wait layer k t (initialBackoff <<< k)] ∧
            isRetryable (some last) = true ∧ k + 1 < maxRetries ∧
            waitBackoff w (initialBackoff <<< k) t = (some waitErr, t') ∧
            (w.select (initialBackoff <<< k) t).1 = some e ∧
            ((interceptorStack w (Traced.lift env) n).exec s).result = (none, some err) ∧
            Reports (w.alloc (w.select (initialBackoff <<< k) t).2).1 (w.alloc t').1 last e err ∧
            layer < n ∧
            Returns (List.range' (layer + 1) (n - (layer + 1))) (none, some err)
              ((interceptorStack w (Traced.lift env) n).exec s).state post := by
  refine ⟨fun hn => ?_, fun pre post layer k t res last hcut hretry hk => ?_,
    fun pre post layer k t' waitErr hcut => ?_⟩
  · obtain ⟨m, rfl⟩ := Nat.exists_eq_add_of_lt hn
    simpa using interceptorStack_start w env m s
  · obtain ⟨rest, hrest⟩ := answered_interceptorStack w env n s pre post layer k t _ hcut hretry
      (Nat.lt_sub_of_add_lt hk)
    exact ⟨_, _, rest, rfl, hrest⟩
  · rcases settled_interceptorStack w env n s with hquiet | ⟨c, is, hends, hlt, rfl, haborted⟩
    · have hnone := hquiet (.woke layer k t' (some waitErr)) (by rw [hcut]; simp)
      simp [Event.isInterrupt] at hnone
    · obtain ⟨before, hpre, rfl, rfl, rfl, rfl, hpost⟩ := hends.cut hcut
      obtain ⟨res, last, e, houtcome, hselect, hresult, -⟩ := haborted
      rw [houtcome] at hpre
      rw [hresult] at hpost
      have hretry : isRetryable (some last) = true := by
        have hasked := c.asked
        rwa [houtcome] at hasked
      exact ⟨before, c.paused, res, last, e, _, hpre, hretry, Nat.add_lt_of_lt_sub c.left,
        c.interrupted, hselect, hresult, reports_abortError _ _ last e, hlt, hpost⟩

/-- The timer wins the first select, and a cancellation every later one. -/
def canceledLater : World ℕ where
  select _ n := (if n = 1 then none else some .canceled, n)
  alloc n := (n, n + 1)

/-- Two layers whose transport is refused every time; the state counts attempts and
joins. -/
def canceledRun : Run (RetryEvent ℕ ℕ Unit Unit) (Result Unit Unit) ℕ :=
  (interceptorStack canceledLater (Traced.lift fun n => ((none, some connectionRefused), n + 1))
    2).exec 0

/-- The second pause of the inner layer is canceled: both layers return the refused
connection, joined with the cancellation, after two attempts. -/
theorem canceledRun_aborted : ∃ err,
    canceledRun.result = (none, some err) ∧ Reports 2 3 connectionRefused .canceled err ∧
      canceledRun.events.filterMap Event.attempt? = [0, 0, 1] ∧
      Returns [1] (none, some err) 4 (canceledRun.events.drop 9) := by
  have hcut : canceledRun.events = canceledRun.events.take 6 ++
      [.returned 0 1 2 (none, some connectionRefused), .wait 0 1 2 (initialBackoff <<< 1)] ++
        .woke 0 1 3 (some (waitError 2 .canceled)) :: canceledRun.events.drop 9 := rfl
  obtain ⟨before, t, res, last, e, err, hpre, -, -, -, hselect, hresult, hreports, -, hpost⟩ :=
    (abort_faithful_and_final canceledLater _ 2 0).2.2 _ _ 0 1 3 _ hcut
  cases List.append_inj_right' hpre rfl
  cases hselect
  exact ⟨err, hresult, hreports, rfl, hpost⟩

end Stack

end Go

end ConnectExamples
