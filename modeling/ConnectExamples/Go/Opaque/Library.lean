import ConnectExamples.Systems.Replies

/-!
# Programs that use messages with one text

A program makes string variables and messages, and calls the methods of the messages. A
`Library` says what variables and messages are. One library represents another along a
relation that every method keeps, and then no program can tell the two apart
(`Represents.step_alike`).
-/

namespace ConnectExamples

namespace Go

namespace Opaque

open Replies

/-- A call of a program that has string variables and messages, both numbered as they are
made. A receiver may be nil. -/
inductive Call where
  | newString (v : String)
  | write (i : ℕ) (v : String)
  | read (i : ℕ)
  | newMessage
  | build (i : Option ℕ)
  | get (x : Option ℕ)
  | has (x : Option ℕ)
  | set (x : Option ℕ) (v : String)
  | clear (x : Option ℕ)
  | reset (x : Option ℕ)
  deriving DecidableEq

inductive Reply where
  | done
  | text (v : String)
  | flag (b : Bool)
  deriving DecidableEq

/-- What the variables and the messages of a program are; `T` holds the variables. -/
structure Library (T M : Type) where
  newString : T → String → T
  write : T → ℕ → String → Option T
  read : T → ℕ → Option String
  newMessage : M
  build : T → Option ℕ → Option M
  get : T → Option M → String
  has : Option M → Bool
  set : T → M → String → T × M
  clear : M → M
  reset : M → M

structure Program (T M : Type) where
  store : T
  messages : List M

variable {T M T' M' : Type}

namespace Program

/-- The receiver of a method that takes a nil receiver. -/
def receiver (s : Program T M) : Option ℕ → Option (Option M)
  | none => some none
  | some i => s.messages[i]?.map some

/-- The receiver of a method that stops at nil. -/
def target (s : Program T M) : Option ℕ → Option (ℕ × M)
  | none => none
  | some i => s.messages[i]?.map fun m => (i, m)

end Program

def Library.step (L : Library T M) (s : Program T M) : Call → Option (Reply × Program T M)
  | .newString v => some (.done, { s with store := L.newString s.store v })
  | .write i v => (L.write s.store i v).map fun t => (.done, { s with store := t })
  | .read i => (L.read s.store i).map fun v => (.text v, s)
  | .newMessage => some (.done, { s with messages := s.messages ++ [L.newMessage] })
  | .build i => (L.build s.store i).map fun m => (.done, { s with messages := s.messages ++ [m] })
  | .get x => (s.receiver x).map fun m => (.text (L.get s.store m), s)
  | .has x => (s.receiver x).map fun m => (.flag (L.has m), s)
  | .set x v => (s.target x).map fun (i, m) =>
      let (t, m) := L.set s.store m v
      (.done, ⟨t, s.messages.set i m⟩)
  | .clear x => (s.target x).map fun (i, m) =>
      (.done, { s with messages := s.messages.set i (L.clear m) })
  | .reset x => (s.target x).map fun (i, m) =>
      (.done, { s with messages := s.messages.set i (L.reset m) })

/-- The call changes message `x` itself. -/
def Call.changes (x : ℕ) : Call → Bool
  | .set y _ | .clear y | .reset y => y == some x
  | _ => false

/-- A call leaves the messages alone that it does not change. -/
theorem Library.step_messages (L : Library T M) {s t : Program T M} {c : Call} {r : Reply} {x : ℕ}
    {m : M} (h : L.step s c = some (r, t)) (hc : c.changes x = false)
    (hm : s.messages[x]? = some m) : t.messages[x]? = some m := by
  have hconcat (n : M) : (s.messages ++ [n])[x]? = some m := by
    rw [List.getElem?_append_left (List.getElem?_eq_some_iff.mp hm).1, hm]
  have htarget {y : Option ℕ} (hy : (y == some x) = false) {f : ℕ × M → Reply × Program T M}
      (hf : ∀ i n, ∃ n', (f (i, n)).2.messages = s.messages.set i n')
      (h : (s.target y).map f = some (r, t)) : t.messages[x]? = some m := by
    obtain ⟨⟨i, n⟩, hi, hfi⟩ := Option.map_eq_some_iff.mp h
    obtain ⟨n', hn'⟩ := hf i n
    cases y with
    | none => cases hi
    | some j =>
        obtain ⟨n'', -, hij⟩ := Option.map_eq_some_iff.mp hi
        cases hij
        have hne : i ≠ x := by simpa using hy
        rw [hfi] at hn'
        rw [hn', List.getElem?_set_ne hne, hm]
  cases c with
  | newString v =>
      cases h
      exact hm
  | newMessage =>
      cases h
      exact hconcat _
  | write i v | read i | get y | has y =>
      obtain ⟨a, -, ha⟩ := Option.map_eq_some_iff.mp h
      cases ha
      exact hm
  | build i =>
      obtain ⟨a, -, ha⟩ := Option.map_eq_some_iff.mp h
      cases ha
      exact hconcat a
  | set y v | clear y | reset y => exact htarget hc (fun i n => ⟨_, rfl⟩) h

/-! ## Representations -/

/-- One library represents another: related variables and messages stay related, and show
the same. A relation may look at the calls that are still to come. -/
structure Represents (L : Library T M) (L' : Library T' M') (rel : List Call → T → T' → Prop)
    (relM : List Call → T → T' → M → M' → Prop) : Prop where
  later : ∀ c cs t t', rel (c :: cs) t t' → rel cs t t'
  laterM : ∀ c cs t t' m m', relM (c :: cs) t t' m m' → relM cs t t' m m'
  newString : ∀ v cs t t', rel cs t t' → rel cs (L.newString t v) (L'.newString t' v) ∧
    ∀ m m', relM cs t t' m m' → relM cs (L.newString t v) (L'.newString t' v) m m'
  write : ∀ i v cs t t', rel (.write i v :: cs) t t' →
    Option.Rel (fun u u' => rel cs u u' ∧ ∀ m m', relM (.write i v :: cs) t t' m m' →
      relM cs u u' m m') (L.write t i v) (L'.write t' i v)
  read : ∀ i cs t t', rel cs t t' → L.read t i = L'.read t' i
  newMessage : ∀ cs t t', rel cs t t' → relM cs t t' L.newMessage L'.newMessage
  build : ∀ i cs t t', rel (.build i :: cs) t t' →
    Option.Rel (relM cs t t') (L.build t i) (L'.build t' i)
  get : ∀ cs t t' m m', rel cs t t' → Option.Rel (relM cs t t') m m' → L.get t m = L'.get t' m'
  has : ∀ cs t t' m m', Option.Rel (relM cs t t') m m' → L.has m = L'.has m'
  set : ∀ v cs t t' m m', rel cs t t' → relM cs t t' m m' →
    rel cs (L.set t m v).1 (L'.set t' m' v).1 ∧
      relM cs (L.set t m v).1 (L'.set t' m' v).1 (L.set t m v).2 (L'.set t' m' v).2 ∧
      ∀ n n', relM cs t t' n n' → relM cs (L.set t m v).1 (L'.set t' m' v).1 n n'
  clear : ∀ cs t t' m m', relM cs t t' m m' → relM cs t t' (L.clear m) (L'.clear m')
  reset : ∀ cs t t' m m', relM cs t t' m m' → relM cs t t' (L.reset m) (L'.reset m')

section Represents

variable {L : Library T M} {L' : Library T' M'} {rel : List Call → T → T' → Prop}
  {relM : List Call → T → T' → M → M' → Prop}

/-- The variables and all messages are related. -/
def Related (rel : List Call → T → T' → Prop) (relM : List Call → T → T' → M → M' → Prop)
    (cs : List Call) (s : Program T M) (s' : Program T' M') : Prop :=
  rel cs s.store s'.store ∧ List.Forall₂ (relM cs s.store s'.store) s.messages s'.messages

theorem rel_map {α β γ δ : Type} {r : α → β → Prop} {q : γ → δ → Prop} {x : Option α}
    {y : Option β} (h : Option.Rel r x y) {f : α → γ} {g : β → δ}
    (hfg : ∀ a b, r a b → q (f a) (g b)) : Option.Rel q (x.map f) (y.map g) := by
  cases h with
  | none => exact .none
  | some hab => exact .some (hfg _ _ hab)

variable {cs : List Call} {s : Program T M} {s' : Program T' M'}

theorem Related.receiver (h : Related rel relM cs s s') (x : Option ℕ) :
    Option.Rel (Option.Rel (relM cs s.store s'.store)) (s.receiver x) (s'.receiver x) := by
  cases x with
  | none => exact .some .none
  | some i => exact rel_map (forall₂_getElem? h.2 i) fun m m' hm => .some hm

theorem Related.target (h : Related rel relM cs s s') (x : Option ℕ) :
    Option.Rel (fun a b => a.1 = b.1 ∧ relM cs s.store s'.store a.2 b.2) (s.target x)
      (s'.target x) := by
  cases x with
  | none => exact .none
  | some i => exact rel_map (forall₂_getElem? h.2 i) fun m m' hm => ⟨rfl, hm⟩

/-- A changed message in the place of the old one. -/
theorem Related.set (h : Related rel relM cs s s') {m : M} {m' : M'}
    (hm : relM cs s.store s'.store m m') (i : ℕ) :
    Related rel relM cs { s with messages := s.messages.set i m }
      { s' with messages := s'.messages.set i m' } :=
  ⟨h.1, forall₂_set h.2 hm i⟩

theorem Related.concat (h : Related rel relM cs s s') {m : M} {m' : M'}
    (hm : relM cs s.store s'.store m m') :
    Related rel relM cs { s with messages := s.messages ++ [m] }
      { s' with messages := s'.messages ++ [m'] } :=
  ⟨h.1, List.rel_append h.2 (.cons hm .nil)⟩

/-- Related programs reply alike to every call. -/
theorem Represents.step_alike (H : Represents L L' rel relM) (c : Call) (cs : List Call)
    (s : Program T M) (s' : Program T' M') (h : Related rel relM (c :: cs) s s') :
    Alike (Related rel relM cs) (L.step s c) (L'.step s' c) := by
  have hlater : Related rel relM cs s s' :=
    ⟨H.later c cs _ _ h.1, h.2.imp fun m m' => H.laterM c cs _ _ m m'⟩
  cases c with
  | newString v =>
      obtain ⟨hstore, hkeep⟩ := H.newString v cs _ _ hlater.1
      exact .some ⟨rfl, hstore, hlater.2.imp hkeep⟩
  | write i v =>
      refine rel_map (H.write i v cs _ _ h.1) ?_
      rintro t t' ⟨hstore, hkeep⟩
      exact ⟨rfl, hstore, h.2.imp hkeep⟩
  | read i =>
      have hread := H.read i cs _ _ hlater.1
      simp only [Library.step, hread]
      cases L'.read s'.store i with
      | none => exact .none
      | some v => exact .some ⟨rfl, hlater⟩
  | newMessage => exact .some ⟨rfl, hlater.concat (H.newMessage cs _ _ hlater.1)⟩
  | build i => exact rel_map (H.build i cs _ _ h.1) fun m m' hm => ⟨rfl, hlater.concat hm⟩
  | get x =>
      exact rel_map (hlater.receiver x) fun m m' hm =>
        ⟨congrArg Reply.text (H.get cs _ _ m m' hlater.1 hm), hlater⟩
  | has x =>
      exact rel_map (hlater.receiver x) fun m m' hm =>
        ⟨congrArg Reply.flag (H.has cs _ _ m m' hm), hlater⟩
  | set x v =>
      refine rel_map (hlater.target x) ?_
      rintro ⟨i, m⟩ ⟨_, m'⟩ ⟨rfl, hm⟩
      obtain ⟨hstore, hset, hkeep⟩ := H.set v cs _ _ m m' hlater.1 hm
      exact ⟨rfl, hstore, forall₂_set (hlater.2.imp hkeep) hset i⟩
  | clear x =>
      refine rel_map (hlater.target x) ?_
      rintro ⟨i, m⟩ ⟨_, m'⟩ ⟨rfl, hm⟩
      exact ⟨rfl, hlater.set (H.clear cs _ _ m m' hm) i⟩
  | reset x =>
      refine rel_map (hlater.target x) ?_
      rintro ⟨i, m⟩ ⟨_, m'⟩ ⟨rfl, hm⟩
      exact ⟨rfl, hlater.set (H.reset cs _ _ m m' hm) i⟩

end Represents

end Opaque

end Go

end ConnectExamples
