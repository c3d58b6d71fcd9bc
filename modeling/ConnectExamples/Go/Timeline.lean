import ConnectExamples.Go.RetryUnary
import ConnectExamples.Retry.Deadline
import Mathlib.Algebra.Order.Field.Rat
import Mathlib.Algebra.Order.Ring.Cast
import Mathlib.Tactic.Positivity

/-!
# Cancellation of the Go client

A timeline places a run of `retryUnary` in time: the context becomes done at an
instant or never, every call takes a non-negative time that may depend on
everything that happened, and the `select` of `waitBackoff` proceeds at the
first instant at which the timer has fired or the context is done, choosing
freely when both happen at once. Instants are measured in nanoseconds in an
arbitrary ordered field.
-/

namespace ConnectExamples

namespace Go

open Retry Tracing

structure Clocked (T υ : Type) where
  now : T
  rest : υ

/-- A call of `next`: what it returns, how long it takes, and what it leaves. -/
structure TimedCall (T υ α P : Type) [Zero T] [LE T] where
  result : Result α P
  duration : T
  duration_nonneg : 0 ≤ duration
  rest : υ

/-- A server, a context and a scheduler, placed in time. -/
structure Timeline (T υ α P : Type) [Zero T] [LE T] where
  /-- The instant at which the context becomes done, if it ever does. -/
  done : Option T
  /-- What `ctx.Err()` returns from then on. -/
  err : ContextError
  call : Clocked T υ → TimedCall T υ α P
  /-- Whether the timer is chosen when both channels are ready at once. -/
  timerFirst : Duration → Clocked T υ → Bool
  alloc : υ → ℕ × υ

section Timeline

variable {T υ ι α P : Type} [Field T] [LinearOrder T]

/-- The time after which a timer fires; one with a negative duration fires at
once. -/
def nanoseconds (d : Duration) : T := ((max 0 d.toInt : ℤ) : T)

namespace Timeline

def next (tl : Timeline T υ α P) (s : Clocked T υ) : Result α P × Clocked T υ :=
  ((tl.call s).result, ⟨s.now + (tl.call s).duration, (tl.call s).rest⟩)

/-- The select statement of `waitBackoff`, entered when its timer is created. -/
def select (tl : Timeline T υ α P) (d : Duration) (s : Clocked T υ) :
    Option ContextError × Clocked T υ :=
  let fire := s.now + nanoseconds d
  match tl.done with
  | none => (none, { s with now := fire })
  | some D =>
      let ready := max s.now D
      if fire < ready then (none, { s with now := fire })
      else if ready < fire then (some tl.err, { s with now := ready })
      else if tl.timerFirst d s then (none, { s with now := fire })
      else (some tl.err, { s with now := ready })

def world (tl : Timeline T υ α P) : World (Clocked T υ) where
  select := tl.select
  alloc s := ((tl.alloc s.rest).1, { s with rest := (tl.alloc s.rest).2 })

/-- `waitBackoff` returns at the instant at which its select proceeds, and
returns nil exactly when the timer wins. -/
theorem waitBackoff_spec (tl : Timeline T υ α P) (d : Duration) (s : Clocked T υ) :
    (waitBackoff (P := P) tl.world d s).2.now = (tl.select d s).2.now ∧
      ((waitBackoff (P := P) tl.world d s).1 = none ↔ (tl.select d s).1 = none) := by
  cases hselect : (tl.select d s).1 with
  | none =>
      have hworld : (tl.world.select d s).1 = none := hselect
      rw [waitBackoff_of_timer hworld]
      exact ⟨rfl, by simp⟩
  | some e =>
      have hworld : (tl.world.select d s).1 = some e := hselect
      rw [waitBackoff_of_done hworld]
      exact ⟨rfl, by simp⟩

/-- The select returns at the earlier of the two instants at which its channels
become ready, and the channel that is chosen is ready then. -/
theorem select_spec (tl : Timeline T υ α P) (d : Duration) (s : Clocked T υ) :
    ((tl.select d s).1 = none ∧ (tl.select d s).2.now = s.now + nanoseconds d ∧
        ∀ D ∈ tl.done, s.now + nanoseconds d ≤ max s.now D) ∨
      ((tl.select d s).1 = some tl.err ∧ ∃ D ∈ tl.done,
        (tl.select d s).2.now = max s.now D ∧ max s.now D ≤ s.now + nanoseconds d) := by
  unfold select
  cases hdone : tl.done with
  | none => exact .inl ⟨rfl, rfl, by simp⟩
  | some D =>
      simp only [Option.mem_def, Option.some.injEq, forall_eq']
      split
      · rename_i hfire
        exact .inl ⟨rfl, rfl, hfire.le⟩
      · rename_i hfire
        have hready : max s.now D ≤ s.now + nanoseconds d := not_lt.mp hfire
        split
        · exact .inr ⟨rfl, D, rfl, rfl, hready⟩
        · rename_i hafter
          split
          · exact .inl ⟨rfl, rfl, not_lt.mp hafter⟩
          · exact .inr ⟨rfl, D, rfl, rfl, hready⟩

section Obeys

variable [IsStrictOrderedRing T]

/-- The calls and the pauses of a timeline obey its clock and its deadline. -/
theorem obeys (tl : Timeline T υ α P) :
    Obeys Clocked.now nanoseconds tl.done tl.next
      (waitBackoff (P := P) tl.world) := by
  have hnonneg : ∀ d : Duration, (0 : T) ≤ nanoseconds d := by
    intro d
    exact Int.cast_nonneg (le_max_left 0 d.toInt)
  constructor
  · intro s
    exact le_add_of_nonneg_right (tl.call s).duration_nonneg
  · intro d s _
    rw [(tl.waitBackoff_spec d s).1]
    rcases tl.select_spec d s with ⟨-, hnow, -⟩ | ⟨-, D, -, hnow, -⟩
    · rw [hnow]
      exact le_add_of_nonneg_right (hnonneg d)
    · rw [hnow]
      exact le_max_left _ _
  · intro d s hnone
    rw [(tl.waitBackoff_spec d s).2] at hnone
    rw [(tl.waitBackoff_spec d s).1]
    rcases tl.select_spec d s with ⟨-, hnow, -⟩ | ⟨hsome, -⟩
    · exact hnow
    · rw [hnone] at hsome
      cases hsome
  · intro d s
    rw [(tl.waitBackoff_spec d s).1]
    rcases tl.select_spec d s with ⟨-, hnow, -⟩ | ⟨-, D, -, hnow, hle⟩
    · exact hnow.le
    · exact hnow.le.trans hle
  · intro D hD d s
    rw [(tl.waitBackoff_spec d s).1]
    rcases tl.select_spec d s with ⟨-, hnow, hle⟩ | ⟨-, D', hD', hnow, -⟩
    · exact hnow.le.trans (hle D hD)
    · obtain rfl := Option.mem_unique hD hD'
      exact hnow.le
  · intro D hD d s hlate hpos hnone
    rw [(tl.waitBackoff_spec d s).2] at hnone
    rcases tl.select_spec d s with ⟨-, -, hle⟩ | ⟨hsome, -⟩
    · have hnot := hle D hD
      rw [max_eq_left hlate] at hnot
      exact absurd hnot (not_le.mpr (lt_add_of_pos_right _ hpos))
    · rw [hnone] at hsome
      cases hsome

theorem backoff_pos : ∀ k < (retryPolicy (α := α) (P := P)).retries,
    (0 : T) < nanoseconds ((retryPolicy (α := α) (P := P)).backoff k) := by
  intro k hk
  have hpos : 0 < max 0 (initialBackoff <<< k).toInt := by
    rw [initialBackoff_shiftLeft k hk]
    positivity
  exact Int.cast_pos.mpr hpos

/-- On every timeline, cancellation stops the retry loop at once: at most one
call starts at or after the instant at which the context becomes done, a wait
ends no later than its timer and the context allow, nothing follows an aborted
wait, and no call after a wait starts before its timer would have fired. -/
theorem cancellation_stops_retries (tl : Timeline T υ α P) (layer : ι)
    (s : Clocked T υ) :
    let events : List (RetryEvent ι (Clocked T υ) α P) :=
      ((retryUnary tl.world layer (Traced.lift tl.next)).exec s).events
    (∀ D, tl.done = some D → events.countP (Event.isLateCall Clocked.now D) ≤ 1) ∧
      (∀ (pre post : List (RetryEvent ι (Clocked T υ) α P)) (j : ι) (k : ℕ)
          (s' : Clocked T υ) (d : Duration), events = pre ++ .wait j k s' d :: post →
        ∃ (s'' : Clocked T υ) (x : Option (Error P)) (rest : List _),
          post = .woke j k s'' x :: rest ∧ s''.now ≤ s'.now + nanoseconds d ∧
            ∀ D, tl.done = some D → s''.now ≤ max s'.now D) ∧
      (∀ (pre post : List (RetryEvent ι (Clocked T υ) α P)) (j : ι) (k : ℕ)
          (s' : Clocked T υ) (waitErr : Error P),
          events = pre ++ .woke j k s' (some waitErr) :: post →
        ∀ ev ∈ post, ev.isCall = false ∧ ev.isWait = false) ∧
      (∀ (pre post : List (RetryEvent ι (Clocked T υ) α P)) (j : ι) (k : ℕ)
          (s' : Clocked T υ) (d : Duration), events = pre ++ .wait j k s' d :: post →
        ∀ ev ∈ post, ev.isCall = true → s'.now + nanoseconds d ≤ ev.state.now) := by
  intro events
  have hevents : events =
      ((retryPolicy.run layer (Traced.lift tl.next) (waitBackoff tl.world)).exec s).events :=
    retryUnary_events tl.world layer _ s
  rw [hevents]
  refine ⟨?_, ?_, ?_, ?_⟩
  · intro D hD
    exact Policy.countP_isLateCall_le_one retryPolicy layer tl.obeys backoff_pos hD s
  · intro pre post j k s' d h
    obtain ⟨rest, rfl⟩ := Policy.woke_of_wait retryPolicy layer tl.next _ h
    exact ⟨_, _, rest, rfl, tl.obeys.prompt d s',
      fun D hD => tl.obeys.prompt_done D hD d s'⟩
  · intro pre post j k s' waitErr h
    rw [Policy.nil_of_interrupt retryPolicy layer tl.next _ h]
    simp
  · intro pre post j k s' d h ev hev hcall
    exact Policy.le_clock_of_call retryPolicy layer tl.obeys backoff_pos h hev hcall

end Obeys

end Timeline

end Timeline

/-- Every call fails at once with `Unavailable`, the context is canceled at the
instant at which the first timer fires, and the timer is chosen. -/
def tie : Timeline ℚ Unit Unit Unit where
  done := some 1000000000
  err := .canceled
  call _ := ⟨(none, some (.node ⟨.other 0, .connectError codeUnavailable (), fun _ => false⟩ [])),
    0, le_rfl, ()⟩
  timerFirst _ _ := true
  alloc u := (0, u)

theorem tie_one_late_call :
    ((retryUnary tie.world () (Traced.lift tie.next)).exec ⟨0, ()⟩).events.countP
      (Event.isLateCall Clocked.now 1000000000) = 1 :=
  le_antisymm ((tie.cancellation_stops_retries () ⟨0, ()⟩).1 1000000000 rfl) (by decide +kernel)

end Go

end ConnectExamples
