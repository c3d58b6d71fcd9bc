import ConnectExamples.Retry.Policy
import Mathlib.Data.List.Forall2

/-!
# Retry loops around retry loops

The attempt of an outer loop may be a whole inner loop, which logs events of
its own. An `Interruption` is one interrupted pause with the attempt before it,
and `EndsInterrupted es c is o t` says that the trace `es` has the interruption
`c`, no other, and after it only the returns of the loops `is` with the outcome
`o`, in this order. If an interrupted attempt has an outcome that asks for no
further attempt, the loop around it adds one more return and stops
(`Policy.loop_nested`), so the property passes to any number of loops around
each other. `Answered` goes the other way: every attempt that asks for another
one is followed by its pause, at any depth.
-/

namespace Retry

open Tracing

variable {ι σ ω δ χ : Type}

def Quiet (es : List (Event ι σ ω δ χ)) : Prop :=
  ∀ ev ∈ es, ev.isInterrupt = false

/-- A pause that was interrupted: attempt `attempt` of the loop returned
`outcome` in state `paused` and asked for another one, and `cause` ended the
pause after it in state `woke`. -/
structure Interruption (ι : Type) (p : Policy ω δ) (pause : δ → σ → Option χ × σ) where
  loop : ι
  attempt : ℕ
  paused : σ
  outcome : ω
  woke : σ
  cause : χ
  asked : p.retry outcome = true
  left : attempt < p.retries
  interrupted : pause (p.backoff attempt) paused = (some cause, woke)

variable {p : Policy ω δ} {pause : δ → σ → Option χ × σ}

def Interruption.events (c : Interruption ι p pause) : List (Event ι σ ω δ χ) :=
  [.returned c.loop c.attempt c.paused c.outcome,
    .wait c.loop c.attempt c.paused (p.backoff c.attempt),
    .woke c.loop c.attempt c.woke (some c.cause)]

/-- The loops `is` return the outcome `o` in state `t`, one after the other. -/
def Returns (is : List ι) (o : ω) (t : σ) (es : List (Event ι σ ω δ χ)) : Prop :=
  List.Forall₂ (fun i ev => ∃ k, ev = .returned i k t o) is es

/-- The trace was interrupted once, by `c`; after that it holds only the returns
of the loops `is`. -/
def EndsInterrupted (es : List (Event ι σ ω δ χ)) (c : Interruption ι p pause)
    (is : List ι) (o : ω) (t : σ) : Prop :=
  ∃ pre post, es = pre ++ c.events ++ post ∧ Quiet pre ∧ Returns is o t post

theorem quiet_append {es es' : List (Event ι σ ω δ χ)} :
    Quiet (es ++ es') ↔ Quiet es ∧ Quiet es' := by
  simp only [Quiet, List.mem_append, or_imp, forall_and]

theorem quiet_cons {ev : Event ι σ ω δ χ} {es : List (Event ι σ ω δ χ)} :
    Quiet (ev :: es) ↔ ev.isInterrupt = false ∧ Quiet es := by
  simp [Quiet]

section Returns

variable {is : List ι} {o : ω} {t : σ} {es : List (Event ι σ ω δ χ)}

theorem Returns.concat (h : Returns is o t es) (i : ι) (k : ℕ) :
    Returns (is ++ [i]) o t (es ++ [.returned i k t o]) :=
  List.rel_append h (.cons ⟨k, rfl⟩ .nil)

theorem Returns.quiet (h : Returns is o t es) : Quiet es := by
  induction h with
  | nil => simp [Quiet]
  | cons hev _ ih =>
      obtain ⟨k, rfl⟩ := hev
      exact quiet_cons.mpr ⟨rfl, ih⟩

end Returns

section EndsInterrupted

variable {es es' : List (Event ι σ ω δ χ)} {c : Interruption ι p pause} {is : List ι}
  {o : ω} {t : σ}

theorem EndsInterrupted.prepend (h : EndsInterrupted es c is o t) (hquiet : Quiet es') :
    EndsInterrupted (es' ++ es) c is o t := by
  obtain ⟨pre, post, rfl, hpre, hpost⟩ := h
  exact ⟨es' ++ pre, post, by simp, quiet_append.mpr ⟨hquiet, hpre⟩, hpost⟩

theorem EndsInterrupted.returned (h : EndsInterrupted es c is o t) (i : ι) (k : ℕ) :
    EndsInterrupted (es ++ [.returned i k t o]) c (is ++ [i]) o t := by
  obtain ⟨pre, post, rfl, hpre, hpost⟩ := h
  exact ⟨pre, post ++ [.returned i k t o], by simp, hpre, hpost.concat i k⟩

/-- Nothing after the interruption yet: outcome and state are still open. -/
theorem EndsInterrupted.finish (h : EndsInterrupted es c [] o t) (o' : ω) (t' : σ) :
    EndsInterrupted es c [] o' t' := by
  obtain ⟨pre, post, rfl, hpre, hpost⟩ := h
  obtain rfl := List.forall₂_nil_left_iff.mp hpost
  exact ⟨pre, [], rfl, hpre, .nil⟩

/-- Wherever such a trace is cut at an interrupt, it is that of `c`, with the
attempt and the pause of `c` right before it and the returns after it. -/
theorem EndsInterrupted.cut (h : EndsInterrupted es c is o t)
    {pre post : List (Event ι σ ω δ χ)} {i : ι} {k : ℕ} {s : σ} {x : χ}
    (hcut : es = pre ++ .woke i k s (some x) :: post) :
    ∃ before,
      pre = before ++ [.returned c.loop c.attempt c.paused c.outcome,
        .wait c.loop c.attempt c.paused (p.backoff c.attempt)] ∧
      i = c.loop ∧ k = c.attempt ∧ s = c.woke ∧ x = c.cause ∧ Returns is o t post := by
  obtain ⟨before, after, rfl, hbefore, hafter⟩ := h
  have hquiet : Quiet (before ++ [.returned c.loop c.attempt c.paused c.outcome,
      .wait c.loop c.attempt c.paused (p.backoff c.attempt)]) :=
    quiet_append.mpr ⟨hbefore, by simp [Quiet, Event.isInterrupt]⟩
  have hnot {l : List (Event ι σ ω δ χ)} (hl : Quiet l) : .woke i k s (some x) ∉ l := by
    intro hmem
    have hfalse := hl _ hmem
    simp [Event.isInterrupt] at hfalse
  have hcut' : (before ++ [.returned c.loop c.attempt c.paused c.outcome,
      .wait c.loop c.attempt c.paused (p.backoff c.attempt)]) ++
        .woke c.loop c.attempt c.woke (some c.cause) :: after =
      pre ++ .woke i k s (some x) :: post := by
    rw [← hcut]
    simp [Interruption.events]
  obtain ⟨hpre, hev, rfl⟩ :=
    (List.append_cons_inj_of_notMem (hnot hquiet) (hnot hafter.quiet)).mp hcut'
  cases hev
  exact ⟨before, hpre.symm, rfl, rfl, rfl, rfl, hafter⟩

end EndsInterrupted

/-- An attempt that is either not interrupted, or ends interrupted as `good`
says: by which interruption, through which loops, and with which outcome. -/
def Settled (good : Interruption ι p pause → List ι → ω → σ → Prop)
    (r : Run (Event ι σ ω δ χ) ω σ) : Prop :=
  Quiet r.events ∨
    ∃ c is, EndsInterrupted r.events c is r.result r.state ∧ good c is r.result r.state

/-- The same for a loop `i`, which an interruption passes through or starts in. -/
def LoopSettled (good : Interruption ι p pause → List ι → ω → σ → Prop) (i : ι)
    (r : Run (Event ι σ ω δ χ) (Exit ω χ) σ) : Prop :=
  match r.result with
  | .done o =>
      Quiet r.events ∨
        ∃ c is, EndsInterrupted r.events c (is ++ [i]) o r.state ∧ good c is o r.state
  | .interrupted o x =>
      ∃ c : Interruption ι p pause, EndsInterrupted r.events c [] o r.state ∧ c.loop = i ∧
        c.outcome = o ∧ c.cause = x ∧ c.woke = r.state

/-- Events logged before a settled loop leave it settled, if no pause among them
was interrupted. -/
theorem LoopSettled.after {good : Interruption ι p pause → List ι → ω → σ → Prop} {i : ι}
    {r : Run (Event ι σ ω δ χ) (Exit ω χ) σ} (h : LoopSettled good i r)
    {es : List (Event ι σ ω δ χ)} (hes : Quiet es) : LoopSettled good i (r.after es) := by
  unfold LoopSettled at h ⊢
  rw [Run.after_result, Run.after_events, Run.after_state]
  cases hresult : r.result with
  | done o =>
      rw [hresult] at h
      rcases h with hquiet | ⟨c, is, hends, hgood⟩
      · exact .inl (quiet_append.mpr ⟨hes, hquiet⟩)
      · exact .inr ⟨c, is, hends.prepend hes, hgood⟩
  | interrupted o x =>
      rw [hresult] at h
      obtain ⟨c, hends, hc⟩ := h
      exact ⟨c, hends.prepend hes, hc⟩

theorem Settled.observeCall {good : Interruption ι p pause → List ι → ω → σ → Prop}
    {call : Traced (Event ι σ ω δ χ) σ ω} {s : σ} (h : Settled good (call.exec s))
    (i : ι) (k : ℕ) :
    Quiet ((Retry.observeCall i k call).exec s).events ∨
      ∃ c is, EndsInterrupted ((Retry.observeCall i k call).exec s).events c (is ++ [i])
          (call.exec s).result (call.exec s).state ∧
        good c is (call.exec s).result (call.exec s).state := by
  rw [exec_observeCall]
  rcases h with hquiet | ⟨c, is, hends, hgood⟩
  · left
    rw [quiet_cons, quiet_append, quiet_cons]
    exact ⟨rfl, hquiet, rfl, by simp [Quiet]⟩
  · right
    have hbefore : Quiet [(.call i k s : Event ι σ ω δ χ)] := by
      simp [Quiet, Event.isInterrupt]
    exact ⟨c, is, (hends.returned i k).prepend hbefore, hgood⟩

/-- Every attempt that asks for another one is followed by its pause. -/
def Answered (p : Policy ω δ) (pause : δ → σ → Option χ × σ)
    (es : List (Event ι σ ω δ χ)) : Prop :=
  ∀ pre post i k s o, es = pre ++ .returned i k s o :: post → p.retry o = true →
    k < p.retries → ∃ rest, post = .wait i k s (p.backoff k) ::
      .woke i k (pause (p.backoff k) s).2 (pause (p.backoff k) s).1 :: rest

section Answered

variable {es es' : List (Event ι σ ω δ χ)}

theorem Answered.append (h : Answered p pause es) (h' : Answered p pause es') :
    Answered p pause (es ++ es') := by
  intro pre post i k s o hcut hretry hk
  rcases List.append_eq_append_iff.mp hcut with ⟨mid, -, hmid⟩ | ⟨mid, hmid, htail⟩
  · exact h' mid post i k s o hmid hretry hk
  · cases mid with
    | nil => exact h' [] post i k s o htail.symm hretry hk
    | cons ev mid =>
        obtain ⟨rfl, rfl⟩ := List.cons.inj htail
        obtain ⟨rest, rfl⟩ := h pre mid i k s o hmid hretry hk
        exact ⟨rest ++ es', rfl⟩

/-- An attempt that asks for no other one, or is the last. -/
theorem answered_last {i : ι} {k : ℕ} {s : σ} {o : ω}
    (h : p.retry o = false ∨ p.retries ≤ k) :
    Answered p pause [(.returned i k s o : Event ι σ ω δ χ)] := by
  intro pre post j l t o' hcut hretry hl
  obtain ⟨rfl, hev⟩ | ⟨_, rfl, hmid⟩ := List.cons_eq_append_iff.mp hcut
  · cases hev
    rcases h with hfalse | hle
    · rw [hfalse] at hretry
      cases hretry
    · omega
  · simp at hmid

theorem answered_pause (i : ι) (k : ℕ) (s : σ) (o : ω) :
    Answered p pause [(.returned i k s o : Event ι σ ω δ χ), .wait i k s (p.backoff k),
      .woke i k (pause (p.backoff k) s).2 (pause (p.backoff k) s).1] := by
  intro pre post j l t o' hcut _ _
  match pre, hcut with
  | [], hcut =>
      cases hcut
      exact ⟨[], rfl⟩
  | [_], hcut | [_, _], hcut | [_, _, _], hcut => cases hcut
  | _ :: _ :: _ :: _ :: _, hcut => cases hcut

end Answered

namespace Policy

variable (p pause) (i : ι) (call : Traced (Event ι σ ω δ χ) σ ω)

/-- A loop around settled attempts is settled, provided that no outcome of an
interrupted attempt asks for another one. -/
theorem loop_nested {good : Interruption ι p pause → List ι → ω → σ → Prop}
    (hcall : ∀ s, Settled good (call.exec s))
    (hgood : ∀ c is o t, good c is o t → p.retry o = false) (k n : ℕ)
    (hk : k + n = p.retries) (s : σ) :
    LoopSettled good i ((loop p i call pause k n).exec s) := by
  have hquiet (s : σ) (hretry : p.retry (call.exec s).result = true) :
      Quiet (call.exec s).events := by
    rcases hcall s with hquiet | ⟨c, is, -, hc⟩
    · exact hquiet
    · rw [hgood c is _ _ hc] at hretry
      cases hretry
  refine loop_rule p i call pause
    (motive := fun k n _ r => k + n = p.retries → LoopSettled good i r) ?_ ?_ ?_ k n s hk
  · intro k n s _ _
    exact (hcall s).observeCall i k
  · intro k n s x hretry hpause hk
    let c : Interruption ι p pause :=
      ⟨i, k, (call.exec s).state, (call.exec s).result,
        (pause (p.backoff k) (call.exec s).state).2, x, hretry, by omega, Prod.ext hpause rfl⟩
    have hends : EndsInterrupted c.events c [] (call.exec s).result
        (pause (p.backoff k) (call.exec s).state).2 :=
      ⟨[], [], rfl, by simp [Quiet], .nil⟩
    have hbefore : Quiet (.call i k s :: (call.exec s).events) :=
      quiet_cons.mpr ⟨rfl, hquiet s hretry⟩
    refine ⟨c, ?_, rfl, rfl, rfl, rfl⟩
    simpa [c, Interruption.events] using hends.prepend hbefore
  · intro k n s r hretry _ ih hk
    refine LoopSettled.after (ih (by omega)) ?_
    rw [exec_observeCall]
    simp only [quiet_append, quiet_cons]
    exact ⟨⟨rfl, hquiet s hretry, rfl, by simp [Quiet]⟩, rfl, rfl, by simp [Quiet]⟩

/-- A loop around attempts that answer their own pauses answers all of them. -/
theorem loop_answered (hcall : ∀ s, Answered p pause (call.exec s).events) (k n : ℕ)
    (hk : k + n = p.retries) (s : σ) :
    Answered p pause ((loop p i call pause k n).exec s).events := by
  have hbefore (k : ℕ) (s : σ) : Answered p pause (.call i k s :: (call.exec s).events) := by
    have hstart : Answered p pause [(.call i k s : Event ι σ ω δ χ)] := by
      intro pre post j l t o hcut
      obtain ⟨rfl, hev⟩ | ⟨_, rfl, hmid⟩ := List.cons_eq_append_iff.mp hcut
      · cases hev
      · simp at hmid
    exact hstart.append (hcall s)
  have hround (k : ℕ) (s : σ) {x : Option χ}
      (hpause : (pause (p.backoff k) (call.exec s).state).1 = x) :
      Answered p pause (((observeCall i k call).exec s).events ++
        [.wait i k (call.exec s).state (p.backoff k),
          .woke i k (pause (p.backoff k) (call.exec s).state).2 x]) := by
    have hpaused := (hbefore k s).append
      (answered_pause i k (call.exec s).state (call.exec s).result)
    rw [hpause] at hpaused
    simpa using hpaused
  refine loop_rule p i call pause
    (motive := fun k n _ r => k + n = p.retries → Answered p pause r.events) ?_ ?_ ?_ k n s hk
  · intro k n s hstop hk
    rw [exec_observeCall]
    refine (hbefore k s).append (answered_last ?_)
    rcases hstop with rfl | hfalse
    · exact .inr (by omega)
    · exact .inl hfalse
  · intro k n s x _ hpause _
    exact hround k s hpause
  · intro k n s r _ hpause ih hk
    exact (hround k s hpause).append (ih (by omega))

/-- A loop starts with an attempt. -/
theorem loop_start (k n : ℕ) (s : σ) :
    ∃ rest, ((loop p i call pause k n).exec s).events =
      ((observeCall i k call).exec s).events ++ rest := by
  refine loop_rule p i call pause (motive := fun k _ s r =>
    ∃ rest, r.events = ((observeCall i k call).exec s).events ++ rest) ?_ ?_ ?_ k n s
  · intro k n s _
    exact ⟨[], (List.append_nil _).symm⟩
  · intro k n s x _ _
    exact ⟨_, rfl⟩
  · intro k n s r _ _ _
    exact ⟨_, List.append_assoc ..⟩

end Policy

end Retry
