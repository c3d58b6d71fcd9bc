import ConnectExamples.Retry.Machine
import ConnectExamples.Systems.Transition
import Mathlib.Algebra.BigOperators.Fin
import Mathlib.Data.List.Nodup

/-!
# Retrying clients, one server and the network between them

Any number of clients each run one retry loop against one server. Requests and
replies are messages in flight: the server handles a request whenever it likes,
also after the client has given the attempt up, and either kind of message may be
lost. A client that waits for a reply may hear a fault instead, at any time. A
message is delivered at most once, and a reply reaches the attempt that it answers.

`Inv` is what holds at every instant of every run, whatever the interleaving: no
attempt is handled twice, and what a client hears without a fault is the reply to
its own attempt.
-/

namespace Rpc

open Retry Transition

structure Net (ι ω : Type) where
  phase : ι → Phase ω
  /-- The attempts whose requests are on their way to the server. -/
  requests : List (ι × ℕ)
  /-- The replies on their way back. -/
  replies : List (ι × ℕ × ω)
  /-- The attempts that the server has handled, in order. -/
  handled : List (ι × ℕ)

variable {ι ω δ : Type}

def Net.start : Net ι ω := ⟨fun _ => .ready 0, [], [], []⟩

inductive Action (ι ω : Type) where
  | call (i : ι)
  | handle (i : ι) (k : ℕ) (o : ω)
  | lose (i : ι) (k : ℕ)
  | deliver (i : ι) (k : ℕ) (o : ω)
  | discard (i : ι) (k : ℕ)
  | fail (i : ι) (o : ω)
  | wake (i : ι)

section Step

variable [DecidableEq ι]

def Net.set (N : Net ι ω) (i : ι) (ph : Phase ω) : Net ι ω :=
  { N with phase := Function.update N.phase i ph }

/-- The steps of the network. The server may answer a request of client `i` with `o`
if `serves i o`, and a call may fail with `o` if `fault o`. -/
inductive Step (p : Policy ω δ) (serves : ι → ω → Prop) (fault : ω → Prop) :
    Net ι ω → Action ι ω → Net ι ω → Prop
  | call {N : Net ι ω} {i : ι} {k : ℕ} (h : N.phase i = .ready k) :
      Step p serves fault N (.call i)
        { N.set i (.calling k) with requests := (i, k) :: N.requests }
  | handle {N : Net ι ω} {i : ι} {k : ℕ} {o : ω} {pre post : List (ι × ℕ)}
      (h : N.requests = pre ++ (i, k) :: post) (ho : serves i o) :
      Step p serves fault N (.handle i k o)
        { N with
          requests := pre ++ post
          replies := (i, k, o) :: N.replies
          handled := N.handled ++ [(i, k)] }
  | lose {N : Net ι ω} {i : ι} {k : ℕ} {pre post : List (ι × ℕ)}
      (h : N.requests = pre ++ (i, k) :: post) :
      Step p serves fault N (.lose i k) { N with requests := pre ++ post }
  | deliver {N : Net ι ω} {i : ι} {k : ℕ} {o : ω} {pre post : List (ι × ℕ × ω)}
      (h : N.replies = pre ++ (i, k, o) :: post) (hphase : N.phase i = .calling k) :
      Step p serves fault N (.deliver i k o)
        { N.set i (p.afterOutcome k o) with replies := pre ++ post }
  | discard {N : Net ι ω} {i : ι} {k : ℕ} {o : ω} {pre post : List (ι × ℕ × ω)}
      (h : N.replies = pre ++ (i, k, o) :: post) :
      Step p serves fault N (.discard i k) { N with replies := pre ++ post }
  | fail {N : Net ι ω} {i : ι} {k : ℕ} {o : ω} (h : N.phase i = .calling k) (ho : fault o) :
      Step p serves fault N (.fail i o) (N.set i (p.afterOutcome k o))
  | wake {N : Net ι ω} {i : ι} {k : ℕ} (h : N.phase i = .pausing k) :
      Step p serves fault N (.wake i) (N.set i (.ready (k + 1)))

variable {p : Policy ω δ} {serves : ι → ω → Prop} {fault : ω → Prop} {N N' : Net ι ω}

theorem Step.handled_handle {i : ι} {k : ℕ} {o : ω}
    (hstep : Step p serves fault N (.handle i k o) N') :
    N'.handled = N.handled ++ [(i, k)] := by
  cases hstep
  rfl

/-- Without a server nothing is handled. -/
theorem Step.handled_eq {a : Action ι ω} (hstep : Step p (fun _ _ => False) fault N a N') :
    N'.handled = N.handled := by
  cases hstep with
  | handle _ ho => exact ho.elim
  | _ => rfl

theorem Step.mono {serves' : ι → ω → Prop} {a : Action ι ω}
    (hserves : ∀ i o, serves i o → serves' i o)
    (hstep : Step p serves fault N a N') : Step p serves' fault N a N' := by
  cases hstep with
  | call h => exact .call h
  | handle h ho => exact .handle h (hserves _ _ ho)
  | lose h => exact .lose h
  | deliver h hphase => exact .deliver h hphase
  | discard h => exact .discard h
  | fail h ho => exact .fail h ho
  | wake h => exact .wake h

end Step

section Inv

variable (p : Policy ω δ) (serves : ι → ω → Prop) (fault : ω → Prop)

/-- Client `i` heard `o` of attempt `k`: a fault, or the reply to this attempt. -/
def Genuine (handled : List (ι × ℕ)) (i : ι) (k : ℕ) (o : ω) : Prop :=
  fault o ∨ serves i o ∧ (i, k) ∈ handled

/-- The outcomes that client `i` has heard are genuine and led to its phase. -/
def Told (handled : List (ι × ℕ)) (i : ι) (ph : Phase ω) : Prop :=
  ∃ os, p.Heard os ph ∧ ∀ k o, os[k]? = some o → Genuine serves fault handled i k o

/-- What holds of the network at every instant. -/
structure Inv (N : Net ι ω) : Prop where
  told : ∀ i, Told p serves fault N.handled i (N.phase i)
  replies : ∀ i k o, (i, k, o) ∈ N.replies → serves i o ∧ (i, k) ∈ N.handled
  started : ∀ i k, (i, k) ∈ N.requests ++ N.handled → k < (N.phase i).started
  once : (N.requests ++ N.handled).Nodup

variable {p serves fault} {N N' : Net ι ω} {i : ι} {k : ℕ} {o : ω} {a : Action ι ω}

theorem inv_start : Inv p serves fault (Net.start : Net ι ω) where
  told i := ⟨[], .start, by simp⟩
  replies i k o h := by simp [Net.start] at h
  started i k h := by simp [Net.start] at h
  once := by simp [Net.start]

theorem Told.mono {handled handled' : List (ι × ℕ)} {ph : Phase ω}
    (h : Told p serves fault handled i ph) (hsub : ∀ x ∈ handled, x ∈ handled') :
    Told p serves fault handled' i ph := by
  obtain ⟨os, hheard, hgenuine⟩ := h
  exact ⟨os, hheard, fun k o hk => (hgenuine k o hk).imp_right fun ⟨hserves, hmem⟩ =>
    ⟨hserves, hsub _ hmem⟩⟩

/-- The attempts that are handled are attempts that a client may make. -/
theorem Inv.handled_lt (h : Inv p serves fault N) (hmem : (i, k) ∈ N.handled) :
    k < p.retries + 1 := by
  obtain ⟨os, hheard, -⟩ := h.told i
  exact (h.started i k (List.mem_append_right _ hmem)).trans_le hheard.started_le

/-- What a client hears of its current attempt tells it how to go on. -/
theorem Told.hear {handled : List (ι × ℕ)} (h : Told p serves fault handled i (.calling k))
    (ho : Genuine serves fault handled i k o) :
    Told p serves fault handled i (p.afterOutcome k o) := by
  obtain ⟨os, hheard, hgenuine⟩ := h
  have hlength : os.length = k := hheard.records.1
  refine ⟨os ++ [o], hheard.hear o, fun l o' hl => ?_⟩
  rcases Nat.lt_or_ge l os.length with hlt | hge
  · rw [List.getElem?_append_left hlt] at hl
    exact hgenuine l o' hl
  · rw [List.getElem?_append_right hge, List.getElem?_singleton] at hl
    split at hl
    · obtain rfl := Option.some.inj hl
      obtain rfl : l = k := by omega
      exact ho
    · cases hl

theorem started_afterOutcome (k : ℕ) (o : ω) : (p.afterOutcome k o).started = k + 1 := by
  unfold Policy.afterOutcome
  split <;> rfl

/-- The server turns a request into a reply and notes that it did. -/
theorem Inv.handle (h : Inv p serves fault N) {pre post : List (ι × ℕ)}
    (hrequests : N.requests = pre ++ (i, k) :: post) (ho : serves i o) :
    Inv p serves fault
      { N with
        requests := pre ++ post
        replies := (i, k, o) :: N.replies
        handled := N.handled ++ [(i, k)] } := by
  have hperm : List.Perm ((pre ++ post) ++ (N.handled ++ [(i, k)])) (N.requests ++ N.handled) := by
    rw [hrequests, ← List.append_assoc]
    exact (List.perm_append_singleton _ _).trans (List.perm_middle.symm.append_right N.handled)
  refine ⟨fun j => (h.told j).mono fun x hx => List.mem_append_left _ hx, fun j l o' hmem => ?_,
    fun j l hmem => h.started j l (hperm.mem_iff.mp hmem), hperm.nodup_iff.mpr h.once⟩
  rcases List.mem_cons.mp hmem with heq | hmem
  · cases heq
    exact ⟨ho, by simp⟩
  · exact (h.replies j l o' hmem).imp_right (List.mem_append_left _)

theorem Inv.lose (h : Inv p serves fault N) {pre post : List (ι × ℕ)}
    (hrequests : N.requests = pre ++ (i, k) :: post) :
    Inv p serves fault { N with requests := pre ++ post } := by
  have hsub : List.Sublist ((pre ++ post) ++ N.handled) (N.requests ++ N.handled) := by
    rw [hrequests]
    grind
  exact ⟨h.told, h.replies, fun j l hmem => h.started j l (hsub.subset hmem),
    hsub.nodup h.once⟩

theorem Inv.discard (h : Inv p serves fault N) {pre post : List (ι × ℕ × ω)}
    (hreplies : N.replies = pre ++ (i, k, o) :: post) :
    Inv p serves fault { N with replies := pre ++ post } := by
  refine ⟨h.told, fun j l o' hmem => h.replies j l o' ?_, h.started, h.once⟩
  rw [hreplies]
  grind

variable [DecidableEq ι]

/-- A client may move on, if it was told so. -/
theorem Inv.set (h : Inv p serves fault N) {ph : Phase ω}
    (htold : Told p serves fault N.handled i ph)
    (hstarted : (N.phase i).started ≤ ph.started) : Inv p serves fault (N.set i ph) where
  told j := by
    by_cases hj : j = i
    · subst hj
      simpa [Net.set] using htold
    · simpa [Net.set, hj] using h.told j
  replies := h.replies
  started j k hmem := by
    by_cases hj : j = i
    · subst hj
      simpa [Net.set] using (h.started j k hmem).trans_le hstarted
    · simpa [Net.set, hj] using h.started j k hmem
  once := h.once

/-- A new request is one that was neither sent nor handled before. -/
theorem Inv.call (h : Inv p serves fault N) (hphase : N.phase i = .ready k) :
    Inv p serves fault { N.set i (.calling k) with requests := (i, k) :: N.requests } := by
  have hset : Inv p serves fault (N.set i (.calling k)) := by
    refine h.set ?_ (by rw [hphase]; exact Nat.le_succ k)
    obtain ⟨os, hheard, hgenuine⟩ := h.told i
    rw [hphase] at hheard
    exact ⟨os, hheard.call, hgenuine⟩
  refine ⟨hset.told, hset.replies, fun j l hmem => ?_, ?_⟩
  · rcases List.mem_cons.mp hmem with heq | hmem
    · obtain ⟨rfl, rfl⟩ := Prod.mk.inj heq
      simp [Net.set, Phase.started]
    · exact hset.started j l hmem
  · refine List.nodup_cons.mpr ⟨fun hmem => ?_, hset.once⟩
    have hlt := h.started i k hmem
    rw [hphase] at hlt
    exact Nat.lt_irrefl k hlt

/-- Every step keeps the invariant. -/
theorem Step.inv (hstep : Step p serves fault N a N') (h : Inv p serves fault N) :
    Inv p serves fault N' := by
  cases hstep with
  | call hphase => exact h.call hphase
  | handle hrequests ho => exact h.handle hrequests ho
  | lose hrequests => exact h.lose hrequests
  | @deliver i k o pre post hreplies hphase =>
      have hreply := h.replies i k o (by rw [hreplies]; simp)
      have htold := h.told i
      rw [hphase] at htold
      refine (h.discard hreplies).set (htold.hear (.inr hreply)) ?_
      rw [started_afterOutcome]
      exact (congrArg Phase.started hphase).le
  | discard hreplies => exact h.discard hreplies
  | @fail i k o hphase ho =>
      have htold := h.told i
      rw [hphase] at htold
      refine h.set (htold.hear (.inl ho)) ?_
      rw [started_afterOutcome]
      exact (congrArg Phase.started hphase).le
  | @wake i k hphase =>
      obtain ⟨os, hheard, hgenuine⟩ := h.told i
      rw [hphase] at hheard
      exact h.set ⟨os, hheard.wake, hgenuine⟩ (by rw [hphase]; exact Nat.le_refl (k + 1))

/-- The invariant holds after every run. -/
theorem inv_of_runs {as : List (Action ι ω)}
    (h : Runs (Step p serves fault) Net.start as N) : Inv p serves fault N :=
  h.invariant (fun _ _ _ hstep hinv => hstep.inv hinv) inv_start

/-- A client has at most `retries + 1` attempts, each handled at most once. -/
theorem Inv.countP_handled_le (h : Inv p serves fault N) (i : ι) :
    N.handled.countP (fun x => x.1 = i) ≤ p.retries + 1 := by
  let mine := N.handled.filter fun x => x.1 = i
  have hnodup : (mine.map Prod.snd).Nodup := by
    refine ((List.nodup_append.mp h.once).2.1.filter _).map_on fun x hx y hy hxy => ?_
    have hx : x.1 = i := by simpa using (List.mem_filter.mp hx).2
    have hy : y.1 = i := by simpa using (List.mem_filter.mp hy).2
    exact Prod.ext (hx.trans hy.symm) hxy
  have hsub : mine.map Prod.snd ⊆ List.range (p.retries + 1) := by
    intro k hk
    obtain ⟨⟨j, l⟩, hmem, rfl⟩ := List.mem_map.mp hk
    obtain ⟨hhandled, hj⟩ := List.mem_filter.mp hmem
    exact List.mem_range.mpr (h.handled_lt hhandled)
  have hle := (List.subperm_of_subset hnodup hsub).length_le
  rw [List.countP_eq_length_filter]
  simpa [mine] using hle

end Inv

end Rpc
