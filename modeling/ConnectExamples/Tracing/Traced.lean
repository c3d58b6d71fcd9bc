import Mathlib.Control.Basic

/-!
# Computations that log events

`Traced ε σ` is the monad of programs that read and change a state of type `σ`
and log events of type `ε`. The environment of a program is the state together
with the functions that move it, so a theorem about every state type and every
such function is a theorem about every environment. Nothing is hidden: a run is
a value, its events are a list in the order in which they were logged.
-/

namespace Tracing

/-- What a run leaves behind: its result, the events it logged in order, and
the state it ended in. -/
structure Run (ε ρ σ : Type) where
  result : ρ
  events : List ε
  state : σ
  deriving DecidableEq

def Run.after {ε ρ σ : Type} (es : List ε) (r : Run ε ρ σ) : Run ε ρ σ :=
  { r with events := es ++ r.events }

@[simp] theorem Run.after_result {ε ρ σ : Type} (es : List ε) (r : Run ε ρ σ) :
    (r.after es).result = r.result := rfl

@[simp] theorem Run.after_events {ε ρ σ : Type} (es : List ε) (r : Run ε ρ σ) :
    (r.after es).events = es ++ r.events := rfl

@[simp] theorem Run.after_state {ε ρ σ : Type} (es : List ε) (r : Run ε ρ σ) :
    (r.after es).state = r.state := rfl

/-- A program with result `ρ` that moves a state and logs events. -/
@[ext] structure Traced (ε σ ρ : Type) where
  exec : σ → Run ε ρ σ

namespace Traced

variable {ε σ ρ τ υ : Type}

instance : Monad (Traced ε σ) where
  pure r := ⟨fun s => ⟨r, [], s⟩⟩
  bind m f := ⟨fun s =>
    let first := m.exec s
    let rest := (f first.result).exec first.state
    ⟨rest.result, first.events ++ rest.events, rest.state⟩⟩

@[simp] theorem exec_pure (r : ρ) (s : σ) :
    (pure r : Traced ε σ ρ).exec s = ⟨r, [], s⟩ := rfl

@[simp] theorem exec_bind (m : Traced ε σ ρ) (f : ρ → Traced ε σ τ) (s : σ) :
    (m >>= f).exec s =
      ⟨((f (m.exec s).result).exec (m.exec s).state).result,
        (m.exec s).events ++ ((f (m.exec s).result).exec (m.exec s).state).events,
        ((f (m.exec s).result).exec (m.exec s).state).state⟩ := rfl

theorem bind_assoc' (m : Traced ε σ ρ) (f : ρ → Traced ε σ τ) (g : τ → Traced ε σ υ) :
    (m >>= f) >>= g = m >>= fun r => f r >>= g := by
  ext s
  simp only [exec_bind, List.append_assoc]

theorem bind_pure' (m : Traced ε σ ρ) : (m >>= fun r => pure r) = m := by
  ext s
  simp only [exec_bind, exec_pure, List.append_nil]

instance : LawfulMonad (Traced ε σ) :=
  LawfulMonad.mk' _ bind_pure' (fun _ _ => rfl) bind_assoc'

@[simp] theorem exec_map (f : ρ → τ) (m : Traced ε σ ρ) (s : σ) :
    (f <$> m).exec s = ⟨f (m.exec s).result, (m.exec s).events, (m.exec s).state⟩ := by
  rw [map_eq_pure_bind]
  simp only [exec_bind, exec_pure, List.append_nil]

/-- Log one event, which may mention the current state. -/
def emit (e : σ → ε) : Traced ε σ Unit := ⟨fun s => ⟨(), [e s], s⟩⟩

@[simp] theorem exec_emit (e : σ → ε) (s : σ) :
    (emit e).exec s = ⟨(), [e s], s⟩ := rfl

/-- A step of the environment, which logs nothing of its own. -/
def lift (f : σ → ρ × σ) : Traced ε σ ρ := ⟨fun s => ⟨(f s).1, [], (f s).2⟩⟩

@[simp] theorem exec_lift (f : σ → ρ × σ) (s : σ) :
    (lift f : Traced ε σ ρ).exec s = ⟨(f s).1, [], (f s).2⟩ := rfl

/-- A list of programs run one after the other, when what one of them returns and
logs, as far as `f` and `g` see it, does not depend on the state. -/
theorem exec_mapM {α β γ : Type} (run : α → Traced ε σ ρ) (f : ρ → β) (g : ε → γ)
    (answer : α → β) (logged : α → List γ)
    (h : ∀ a s, f ((run a).exec s).result = answer a ∧
      ((run a).exec s).events.map g = logged a)
    (as : List α) (s : σ) :
    ((as.mapM run).exec s).result.map f = as.map answer ∧
      ((as.mapM run).exec s).events.map g = as.flatMap logged := by
  induction as generalizing s with
  | nil => simp
  | cons a as ih =>
      obtain ⟨hanswer, hlogged⟩ := h a s
      obtain ⟨hanswers, hlog⟩ := ih ((run a).exec s).state
      simp [List.mapM_cons, hanswer, hlogged, hanswers, hlog]

end Traced

/-- How a loop with an early return ends: inside its body, or by falling off
its end with the value of its loop variable. -/
inductive Flow (ρ τ : Type) where
  | ret (result : ρ)
  | fell (last : τ)
  deriving DecidableEq

end Tracing
