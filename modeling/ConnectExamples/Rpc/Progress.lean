import ConnectExamples.Rpc.Network
import Mathlib.Algebra.BigOperators.Group.Finset.Basic
import Mathlib.Algebra.BigOperators.Ring.Finset

/-!
# Every run of a network ends

Whatever the interleaving and the faults, finitely many clients take boundedly many
steps. `potential` counts the steps that the phases and the messages in flight can
still lead to, and every step lowers it. A network that cannot take a step has told
every client its last outcome and has no message left.
-/

namespace Rpc

open Retry Transition

variable {ι ω δ : Type} {serves : ι → ω → Prop} {fault : ω → Prop}

section Potential

variable (p : Policy ω δ)

/-- The steps that a phase can still lead to: five for every attempt that is left. -/
def rank : Phase ω → ℕ
  | .ready k => 5 * (p.retries - k) + 5
  | .calling k => 5 * (p.retries - k) + 2
  | .pausing k => 5 * (p.retries - k) + 1
  | .ended _ _ => 0

def potential [Fintype ι] (N : Net ι ω) : ℕ :=
  ∑ i, rank p (N.phase i) + 2 * N.requests.length + N.replies.length

variable {p} {N N' : Net ι ω} {i : ι} {k : ℕ} {o : ω} {a : Action ι ω}

theorem rank_afterOutcome_lt (k : ℕ) (o : ω) :
    rank p (p.afterOutcome k o) < rank p (.calling k) := by
  unfold Policy.afterOutcome
  split
  · exact Nat.lt_succ_self _
  · exact Nat.succ_pos _

theorem rank_wake_lt (hk : k < p.retries) : rank p (.ready (k + 1)) < rank p (.pausing k) := by
  simp only [rank]
  omega

/-- A pause is followed by an attempt that is left. -/
theorem Inv.pausing_lt (h : Inv p serves fault N) (hphase : N.phase i = .pausing k) :
    k < p.retries := by
  obtain ⟨os, hheard, -⟩ := h.told i
  rw [hphase] at hheard
  exact hheard.records.2.1

variable [DecidableEq ι] [Fintype ι]

theorem potential_set (ph : Phase ω) :
    potential p (N.set i ph) + rank p (N.phase i) = potential p N + rank p ph := by
  have hsum : ∀ f : ι → Phase ω,
      ∑ j, rank p (f j) = rank p (f i) + ∑ j ∈ Finset.univ.erase i, rank p (f j) :=
    fun f => (Finset.add_sum_erase _ _ (Finset.mem_univ i)).symm
  have hrest : ∑ j ∈ Finset.univ.erase i, rank p (Function.update N.phase i ph j) =
      ∑ j ∈ Finset.univ.erase i, rank p (N.phase j) :=
    Finset.sum_congr rfl fun j hj => by
      rw [Function.update_of_ne (Finset.ne_of_mem_erase hj)]
  simp only [potential, Net.set]
  rw [hsum (Function.update N.phase i ph), hsum N.phase, hrest, Function.update_self]
  omega

/-- A client that moves on to a phase of lower rank lowers the potential. -/
theorem potential_set_lt {ph ph' : Phase ω} (hphase : N.phase i = ph)
    (hlt : rank p ph' < rank p ph) : potential p (N.set i ph') < potential p N := by
  have hset := potential_set (p := p) (N := N) (i := i) ph'
  rw [hphase] at hset
  omega

/-- Every step lowers the potential. -/
theorem Step.potential_lt (hstep : Step p serves fault N a N') (h : Inv p serves fault N) :
    potential p N' < potential p N := by
  cases hstep with
  | @call i k hphase =>
      have hset := potential_set (p := p) (N := N) (i := i) (.calling k)
      rw [hphase] at hset
      simp only [potential, Net.set, rank, List.length_cons] at hset ⊢
      omega
  | handle hrequests ho =>
      simp only [potential, hrequests, List.length_append, List.length_cons]
      omega
  | lose hrequests =>
      simp only [potential, hrequests, List.length_append, List.length_cons]
      omega
  | @deliver i k o pre post hreplies hphase =>
      have hset := potential_set_lt hphase (rank_afterOutcome_lt (p := p) k o)
      simp only [potential, Net.set, hreplies, List.length_append, List.length_cons] at hset ⊢
      omega
  | discard hreplies =>
      simp only [potential, hreplies, List.length_append, List.length_cons]
      omega
  | @fail i k o hphase ho => exact potential_set_lt hphase (rank_afterOutcome_lt k o)
  | wake hphase => exact potential_set_lt hphase (rank_wake_lt (h.pausing_lt hphase))

/-- A run takes at most `5 * retries + 5` steps for each client. -/
theorem runs_length_le {as : List (Action ι ω)}
    (h : Runs (Step p serves fault) Net.start as N) :
    as.length ≤ (5 * p.retries + 5) * Fintype.card ι := by
  have hle := h.length_add_le (fun _ _ _ hstep hinv => hstep.inv hinv)
    (fun _ _ _ hstep hinv => hstep.potential_lt hinv) inv_start
  have hstart : potential p (Net.start : Net ι ω) = (5 * p.retries + 5) * Fintype.card ι := by
    simp [potential, Net.start, rank, Nat.mul_comm]
  omega

/-- Every run can be continued until no step is possible. -/
theorem exists_stuck (h : Inv p serves fault N) :
    ∃ as N', Runs (Step p serves fault) N as N' ∧ Stuck (Step p serves fault) N' :=
  Runs.exists_stuck (fun _ _ _ hstep hinv => hstep.inv hinv)
    (fun _ _ _ hstep hinv => hstep.potential_lt hinv) N h

end Potential

section Stuck

variable {p : Policy ω δ} [DecidableEq ι] {N : Net ι ω}

/-- As long as a call can fail, a network is stuck only when every client has ended and
no message is in flight. -/
theorem stuck_iff (hfault : ∃ o, fault o) :
    Stuck (Step p serves fault) N ↔
      (∀ i, ∃ k o, N.phase i = .ended k o) ∧ N.requests = [] ∧ N.replies = [] := by
  constructor
  · intro h
    refine ⟨fun i => ?_, ?_, ?_⟩
    · cases hphase : N.phase i with
      | ready k => exact absurd (.call hphase) (h _ _)
      | calling k =>
          obtain ⟨o, ho⟩ := hfault
          exact absurd (.fail hphase ho) (h _ _)
      | pausing k => exact absurd (.wake hphase) (h _ _)
      | ended k o => exact ⟨k, o, rfl⟩
    · cases hrequests : N.requests with
      | nil => rfl
      | cons x post =>
          have hfirst : N.requests = [] ++ x :: post := hrequests
          exact absurd (.lose hfirst) (h _ _)
    · cases hreplies : N.replies with
      | nil => rfl
      | cons x post =>
          have hfirst : N.replies = [] ++ x :: post := hreplies
          exact absurd (.discard hfirst) (h _ _)
  · rintro ⟨hended, hrequests, hreplies⟩ a N' hstep
    cases hstep with
    | @call i k hphase => obtain ⟨l, o, h⟩ := hended i; simp [h] at hphase
    | handle h ho => simp [hrequests] at h
    | lose h => simp [hrequests] at h
    | deliver h hphase => simp [hreplies] at h
    | discard h => simp [hreplies] at h
    | @fail i k o hphase ho => obtain ⟨l, o, h⟩ := hended i; simp [h] at hphase
    | @wake i k hphase => obtain ⟨l, o, h⟩ := hended i; simp [h] at hphase

end Stuck

end Rpc
