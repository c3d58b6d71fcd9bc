import ConnectExamples.Go.RetryUnary

/-!
# When definitive Connect errors are final

A Connect error whose code is neither `Unavailable` nor `ResourceExhausted` is
the server's verdict, and the network tests of `isRetryable` are meant for
errors that are not Connect errors. They are applied to the whole tree, though,
so a Connect error that wraps an `*net.OpError` or a timed-out `net.Error` is
sent again. A run treats every definitive error as final exactly when no attempt
but the last returns one with such a cause.
-/

namespace ConnectExamples

namespace Go

open Retry Tracing TreeSearch

variable {ι σ α P : Type}

def DefinitiveIsFinal (events : List (RetryEvent ι σ α P)) : Prop :=
  ∀ pre post j k s res err, events = pre ++ .returned j k s (res, some err) :: post →
    Definitive err → ∀ ev ∈ post, ev.isCall = false ∧ ev.isWait = false

/-- Every definitive error of an attempt that may be repeated is one whose
verdict the client accepts. -/
def NoNetworkCauses (events : List (RetryEvent ι σ α P)) : Prop :=
  ∀ j k s res err, .returned j k s (res, some err) ∈ events → k + 1 < maxRetries →
    Definitive err → NoNetworkCause err

/-- In a run of `retryUnary`, in any world and against any server, definitive
errors are final exactly when none of them has a network cause, the error of
the last attempt apart. -/
theorem definitiveIsFinal_iff (w : World σ) (layer : ι) (env : σ → Result α P × σ)
    (s : σ) :
    DefinitiveIsFinal ((retryUnary w layer (Traced.lift env)).exec s).events ↔
      NoNetworkCauses ((retryUnary w layer (Traced.lift env)).exec s).events := by
  rw [retryUnary_events]
  constructor
  · intro hfinal j k s' res err hmem hk hdef
    obtain ⟨pre, post, hsplit⟩ := List.append_of_mem hmem
    rw [← isRetryable_eq_false_iff_of_definitive hdef, ← Bool.not_eq_true]
    intro hretry
    have hleft : k < (retryPolicy (α := α) (P := P)).retries := Nat.lt_sub_of_add_lt hk
    obtain ⟨rest, rfl⟩ :=
      Policy.wait_of_returned retryPolicy layer env (waitBackoff w) hsplit hretry hleft
    have hwait := (hfinal pre _ j k s' res err hsplit hdef _ List.mem_cons_self).2
    simp [Event.isWait] at hwait
  · intro hcauses pre post j k s' res err hsplit hdef
    have hpost : post = [] := by
      rw [Policy.returned_last_iff retryPolicy layer env (waitBackoff w) hsplit]
      by_cases hk : k + 1 < maxRetries
      · have hquiet : NoNetworkCause err :=
          hcauses j k s' res err (by rw [hsplit]; simp) hk hdef
        exact .inl ((isRetryable_eq_false_iff_of_definitive hdef).mpr hquiet)
      · exact .inr (Nat.sub_le_of_le_add (Nat.le_of_not_lt hk))
    rw [hpost]
    simp

def background (alloc : σ → ℕ × σ) : World σ where
  select _ s := (none, s)
  alloc := alloc

def resetInvalidArgument : Error Unit :=
  .node ⟨.other 0, .connectError codeInvalidArgument (), fun _ => false⟩
    [.node ⟨.other 1, .opError, fun _ => false⟩
      [.node ⟨.other 2, .plain, fun _ => false⟩ []]]

/-- Every attempt is answered by `resetInvalidArgument`; the state counts the
attempts. -/
def resetRun : Run (RetryEvent Unit ℕ Unit Unit) (Result Unit Unit) ℕ :=
  (retryUnary (background fun n => (n, n)) ()
    (Traced.lift fun n => ((none, some resetInvalidArgument), n + 1))).exec 0

/-- The request that got a definitive error is sent again. -/
theorem resetInvalidArgument_sent_again : ¬ DefinitiveIsFinal resetRun.events := by
  intro hfinal
  have hdef : Definitive resetInvalidArgument := ⟨by decide, by decide⟩
  have hsplit : resetRun.events =
      [.call () 0 0] ++ .returned () 0 1 (none, some resetInvalidArgument) ::
        resetRun.events.drop 2 := rfl
  have hagain : .call () 1 1 ∈ resetRun.events.drop 2 :=
    List.mem_of_getElem? (i := 2) rfl
  have hnone := (hfinal _ _ () 0 1 none _ hsplit hdef _ hagain).1
  simp [Event.isCall] at hnone

end Go

end ConnectExamples
