import ConnectExamples.Go.Opaque.Library
import ConnectExamples.Go.Server

/-!
# The opaque messages of the generated Go code

A message of the opaque API holds a pointer to its text and a word of presence bits.
`SetMessage` points it to a copy of its argument, but `Build` to the variable of the
builder, and a program that writes to this variable later changes the message. What a
program sees of the messages is what contents would show it that are texts of their own or
shared variables (`sharing_represents`); and a program that never writes to a variable
after giving it to `Build` sees plain optional texts (`values_represent`), as the server
model has them.
-/

namespace ConnectExamples

namespace Go

namespace Opaque

open Replies

variable {M T : Type}

/-! ## The messages on the heap -/

/-- The functions of `protoimpl.X` on a word of presence bits. -/
structure Presence where
  setPresent : UInt32 → ℕ → ℕ → UInt32
  setPresentNonAtomic : UInt32 → ℕ → ℕ → UInt32
  clearPresent : UInt32 → ℕ → UInt32
  present : UInt32 → ℕ → Bool

/-- What the messages rely on: bit 0 is the presence of the only field. -/
structure Presence.Lawful (X : Presence) : Prop where
  present_zero : X.present 0 0 = false
  present_set : ∀ w size, X.present (X.setPresent w 0 size) 0 = true
  present_setNonAtomic : ∀ w size, X.present (X.setPresentNonAtomic w 0 size) 0 = true
  present_clear : ∀ w, X.present (X.clearPresent w 0) 0 = false

section Bits

def bits : Presence where
  setPresent w n _ := w ||| 1 <<< UInt32.ofNat n
  setPresentNonAtomic w n _ := w ||| 1 <<< UInt32.ofNat n
  clearPresent w n := w &&& ~~~(1 <<< UInt32.ofNat n)
  present w n := w &&& 1 <<< UInt32.ofNat n != 0

theorem present_or_bit (w : UInt32) :
    (w ||| 1 <<< UInt32.ofNat 0) &&& 1 <<< UInt32.ofNat 0 ≠ 0 := by
  have hbit : (w ||| 1 <<< UInt32.ofNat 0) &&& 1 <<< UInt32.ofNat 0 = 1 := by
    apply UInt32.toBitVec_inj.mp
    ext i hi
    simp
    grind
  rw [hbit]
  decide

theorem lawful_bits : bits.Lawful where
  present_zero := by decide
  present_set w _ := bne_iff_ne.mpr (present_or_bit w)
  present_setNonAtomic w _ := bne_iff_ne.mpr (present_or_bit w)
  present_clear w := by
    simp only [bits]
    rw [UInt32.and_assoc]
    simp

end Bits

/-- A message: the address of its text, and `XXX_presence[0]`. -/
structure Message where
  hiddenMessage : Option ℕ
  presence : UInt32

def Message.empty : Message := ⟨none, 0⟩

/-- The texts by address, and the addresses of the variables of the program. -/
structure Heap where
  strings : List String
  vars : List ℕ

section Source

variable (X : Presence)

/-- `GetMessage`, also on a nil receiver. -/
def getMessage (strings : List String) : Option Message → String
  | some x =>
      match x.hiddenMessage with
      | some p => strings.getD p ""
      | none => ""
  | none => ""

/-- `SetMessage`: the parameter is a new variable, which escapes. -/
def setMessage (strings : List String) (x : Message) (v : String) : List String × Message :=
  (strings ++ [v], ⟨some strings.length, X.setPresent x.presence 0 1⟩)

def hasMessage : Option Message → Bool
  | none => false
  | some x => X.present x.presence 0

def clearMessage (x : Message) : Message := ⟨none, X.clearPresent x.presence 0⟩

def build (message : Option ℕ) : Message :=
  let x := Message.empty
  match message with
  | none => x
  | some p => ⟨some p, X.setPresentNonAtomic x.presence 0 1⟩

def reset (_ : Message) : Message := .empty

/-- The generated code on a heap. -/
def onHeap : Library Heap Message where
  newString h v := ⟨h.strings ++ [v], h.vars ++ [h.strings.length]⟩
  write h i v := h.vars[i]?.map fun p => { h with strings := h.strings.set p v }
  read h i := h.vars[i]?.map fun p => h.strings.getD p ""
  newMessage := .empty
  build h
    | none => some (build X none)
    | some i => h.vars[i]?.map fun p => build X (some p)
  get h := getMessage h.strings
  has := hasMessage X
  set h m v :=
    let (strings, m) := setMessage X h.strings m v
    (⟨strings, h.vars⟩, m)
  clear := clearMessage X
  reset := reset

end Source

/-! ## Own texts and shared variables -/

inductive Content where
  | absent
  | own (text : String)
  | shared (i : ℕ)

namespace Content

/-- The text, if there is one; `vars` are the variables of the program. -/
def text (vars : List String) : Content → Option String
  | .absent => none
  | .own v => some v
  | .shared i => vars[i]?

def isPresent : Content → Bool
  | .absent => false
  | .own _ | .shared _ => true

end Content

/-- What the messages are for a program: `Build` shares and `SetMessage` copies. -/
def sharing : Library (List String) Content where
  newString vars v := vars ++ [v]
  write vars i v := vars[i]?.map fun _ => vars.set i v
  read vars i := vars[i]?
  newMessage := .absent
  build vars
    | none => some .absent
    | some i => vars[i]?.map fun _ => .shared i
  get vars
    | none => ""
    | some m => (m.text vars).getD ""
  has
    | none => false
    | some m => m.isPresent
  set vars _ v := (vars, .own v)
  clear _ := .absent
  reset _ := .absent

section Sharing

variable {X : Presence}

/-- The variables of the program are at different addresses, and hold what they hold. -/
structure Vars (h : Heap) (vars : List String) : Prop where
  nodup : h.vars.Nodup
  length : h.vars.length = vars.length
  read : ∀ i p : ℕ, h.vars[i]? = some p → h.strings[p]? = vars[i]?

/-- A message on the heap has a content; a text of its own is at no variable. -/
inductive Holds (X : Presence) (h : Heap) : Message → Content → Prop
  | absent {w : UInt32} (hw : X.present w 0 = false) : Holds X h ⟨none, w⟩ .absent
  | own {w : UInt32} {p : ℕ} {v : String} (hw : X.present w 0 = true) (hp : p ∉ h.vars)
      (hv : h.strings[p]? = some v) : Holds X h ⟨some p, w⟩ (.own v)
  | shared {w : UInt32} {i p : ℕ} (hw : X.present w 0 = true) (hp : h.vars[i]? = some p) :
      Holds X h ⟨some p, w⟩ (.shared i)

variable {h : Heap} {vars : List String} {m : Message} {c : Content}

theorem Vars.exists_read (hv : Vars h vars) {i p : ℕ} (hp : h.vars[i]? = some p) :
    ∃ v, vars[i]? = some v ∧ h.strings[p]? = some v := by
  have hlt : i < vars.length := hv.length ▸ (List.getElem?_eq_some_iff.mp hp).1
  have hsome : vars[i]? = some vars[i] := List.getElem?_eq_getElem hlt
  exact ⟨_, hsome, (hv.read i p hp).trans hsome⟩

/-- The variables of the program are the same ones on both sides. -/
theorem Vars.rel_getElem? (hv : Vars h vars) (i : ℕ) :
    Option.Rel (fun p v => h.vars[i]? = some p ∧ h.strings[p]? = some v) h.vars[i]? vars[i]? := by
  cases hp : h.vars[i]? with
  | none =>
      rw [List.getElem?_eq_none (hv.length ▸ List.getElem?_eq_none_iff.mp hp)]
      exact .none
  | some p =>
      obtain ⟨v, hs, hread⟩ := hv.exists_read hp
      rw [hs]
      exact .some ⟨rfl, hread⟩

theorem Vars.lt (hv : Vars h vars) {p : ℕ} (hp : p ∈ h.vars) : p < h.strings.length := by
  obtain ⟨i, hi⟩ := List.mem_iff_getElem?.mp hp
  obtain ⟨v, -, hread⟩ := hv.exists_read hi
  exact (List.getElem?_eq_some_iff.mp hread).1

/-- A text that is added to the heap changes no other one. -/
theorem getElem?_concat_of_some {strings : List String} {p : ℕ} {s : String}
    (hs : strings[p]? = some s) (v : String) : (strings ++ [v])[p]? = some s := by
  rw [List.getElem?_append_left (List.getElem?_eq_some_iff.mp hs).1, hs]

theorem Vars.newString (hv : Vars h vars) (v : String) :
    Vars ⟨h.strings ++ [v], h.vars ++ [h.strings.length]⟩ (vars ++ [v]) where
  nodup := by
    refine List.Nodup.append hv.nodup (List.nodup_singleton _) ?_
    rw [List.disjoint_singleton]
    exact fun hmem => (hv.lt hmem).false
  length := by simp [hv.length]
  read i p hp := by
    rcases Nat.lt_trichotomy i h.vars.length with hlt | rfl | hgt
    · rw [List.getElem?_append_left hlt] at hp
      obtain ⟨s, hs, hread⟩ := hv.exists_read hp
      rw [getElem?_concat_of_some hread, getElem?_concat_of_some hs]
    · simp only [List.getElem?_concat_length, Option.some.injEq] at hp
      rw [← hp, hv.length]
      simp
    · rw [List.getElem?_eq_none (by simp; omega)] at hp
      cases hp

theorem Vars.concat (hv : Vars h vars) (v : String) : Vars ⟨h.strings ++ [v], h.vars⟩ vars where
  nodup := hv.nodup
  length := hv.length
  read i p hp := by
    obtain ⟨s, hs, hread⟩ := hv.exists_read hp
    rw [getElem?_concat_of_some hread, hs]

/-- A text at no variable is not changed by writing to one. -/
theorem Vars.write (hv : Vars h vars) {i p : ℕ} (hp : h.vars[i]? = some p) (v : String) :
    Vars { h with strings := h.strings.set p v } (vars.set i v) where
  nodup := hv.nodup
  length := by simp [hv.length]
  read j q hq := by
    obtain ⟨hi, hip⟩ := List.getElem?_eq_some_iff.mp hp
    obtain ⟨hj, hjq⟩ := List.getElem?_eq_some_iff.mp hq
    by_cases hij : i = j
    · subst hij
      have hpq : p = q := hip.symm.trans hjq
      subst hpq
      rw [List.getElem?_set_self (hv.lt (List.mem_of_getElem? hp)),
        List.getElem?_set_self (hv.length ▸ hi)]
    · have hpq : p ≠ q := by
        rintro rfl
        exact hij ((hv.nodup.getElem_inj_iff).mp (hip.trans hjq.symm))
      rw [List.getElem?_set_ne hpq, List.getElem?_set_ne hij]
      exact hv.read j q hq

theorem Holds.newString (hm : Holds X h m c) (v : String) :
    Holds X ⟨h.strings ++ [v], h.vars ++ [h.strings.length]⟩ m c := by
  cases hm with
  | absent hw => exact .absent hw
  | own hw hp hread =>
      refine .own hw ?_ (getElem?_concat_of_some hread v)
      rw [List.mem_append, List.mem_singleton]
      rintro (hmem | rfl)
      · exact hp hmem
      · exact (List.getElem?_eq_some_iff.mp hread).1.false
  | shared hw hp =>
      refine .shared hw ?_
      rw [List.getElem?_append_left (List.getElem?_eq_some_iff.mp hp).1]
      exact hp

theorem Holds.write (hm : Holds X h m c) {i p : ℕ} (hp : h.vars[i]? = some p) (v : String) :
    Holds X { h with strings := h.strings.set p v } m c := by
  cases hm with
  | absent hw => exact .absent hw
  | @own w q s hw hq hread =>
      have hpq : p ≠ q := by
        rintro rfl
        exact hq (List.mem_of_getElem? hp)
      exact .own hw hq ((List.getElem?_set_ne hpq).trans hread)
  | shared hw hq => exact .shared hw hq

theorem Holds.concat (hm : Holds X h m c) (v : String) :
    Holds X ⟨h.strings ++ [v], h.vars⟩ m c := by
  cases hm with
  | absent hw => exact .absent hw
  | own hw hp hread => exact .own hw hp (getElem?_concat_of_some hread v)
  | shared hw hp => exact .shared hw hp

/-- A message on the heap shows its content. -/
theorem Holds.getMessage_eq (hm : Holds X h m c) (hv : Vars h vars) :
    getMessage h.strings (some m) = (c.text vars).getD "" := by
  cases hm with
  | absent hw => rfl
  | own hw hp hread => simp [getMessage, Content.text, hread]
  | shared hw hp =>
      obtain ⟨s, hs, hread⟩ := hv.exists_read hp
      simp [getMessage, Content.text, hs, hread]

theorem Holds.hasMessage_eq (hm : Holds X h m c) : hasMessage X (some m) = c.isPresent := by
  cases hm <;> assumption

/-- The generated code shares and copies as contents do. -/
theorem sharing_represents (hX : X.Lawful) :
    Represents (onHeap X) sharing (fun _ => Vars) fun _ h _ => Holds X h where
  later _ _ _ _ hv := hv
  laterM _ _ _ _ _ _ hm := hm
  newString v cs h vars hv := ⟨hv.newString v, fun _ _ hm => hm.newString v⟩
  write i v cs h vars hv :=
    rel_map (hv.rel_getElem? i) fun p s hps => ⟨hv.write hps.1 v, fun _ _ hm => hm.write hps.1 v⟩
  read i cs h vars hv := by
    simp only [onHeap, sharing]
    cases hp : h.vars[i]? with
    | none => exact (List.getElem?_eq_none (hv.length ▸ List.getElem?_eq_none_iff.mp hp)).symm
    | some p =>
        obtain ⟨v, hs, hread⟩ := hv.exists_read hp
        simp [hs, hread]
  newMessage _ _ _ _ := .absent hX.present_zero
  build i cs h vars hv := by
    cases i with
    | none => exact .some (.absent hX.present_zero)
    | some i =>
        exact rel_map (hv.rel_getElem? i) fun p s hps =>
          .shared (hX.present_setNonAtomic _ _) hps.1
  get cs h vars m c hv hm := by
    cases hm with
    | none => rfl
    | some hm => exact hm.getMessage_eq hv
  has cs h vars m c hm := by
    cases hm with
    | none => rfl
    | some hm => exact hm.hasMessage_eq
  set v cs h vars m c hv hm := by
    have hfresh : h.strings.length ∉ h.vars := fun hmem => (hv.lt hmem).false
    exact ⟨hv.concat v, .own (hX.present_set _ _) hfresh List.getElem?_concat_length,
      fun _ _ hn => hn.concat v⟩
  clear _ _ _ _ _ _ := .absent (hX.present_clear _)
  reset _ _ _ _ _ _ := .absent hX.present_zero

end Sharing

/-! ## Plain texts -/

/-- The messages of the server model, which are plain optional texts. -/
def values : Library (List String) Server.OpaqueMessage where
  newString vars v := vars ++ [v]
  write vars i v := vars[i]?.map fun _ => vars.set i v
  read vars i := vars[i]?
  newMessage := .empty
  build vars
    | none => some (.build none)
    | some i => vars[i]?.map fun v => .build (some v)
  get _ := Server.OpaqueMessage.getMessage
  has
    | none => false
    | some x => x.hasMessage
  set vars x v := (vars, x.setMessage v)
  clear _ := .empty
  reset _ := .empty

/-- No variable is written to after it was given to `Build`. -/
def Untouched (cs : List Call) : Prop :=
  cs.Pairwise fun c d => ∀ i v, c = .build (some i) → d ≠ .write i v

section Values

/-- A content shows the text of a message, and goes on to show it. -/
inductive Shows (cs : List Call) (vars : List String) : Content → Server.OpaqueMessage → Prop
  | absent : Shows cs vars .absent .empty
  | own (v : String) : Shows cs vars (.own v) (.build (some v))
  | shared {i : ℕ} {v : String} (hv : vars[i]? = some v) (hcs : ∀ w, Call.write i w ∉ cs) :
      Shows cs vars (.shared i) (.build (some v))

variable {cs : List Call} {vars : List String} {c : Content} {x : Server.OpaqueMessage}

theorem Shows.write {i : ℕ} {v : String} (hx : Shows (.write i v :: cs) vars c x) :
    Shows cs (vars.set i v) c x := by
  cases hx with
  | absent => exact .absent
  | own w => exact .own w
  | @shared j w hv hcs =>
      have hij : i ≠ j := by
        rintro rfl
        exact hcs v List.mem_cons_self
      exact .shared ((List.getElem?_set_ne hij).trans hv)
        fun u hu => hcs u (List.mem_cons_of_mem _ hu)

/-- Contents are plain texts to a program that leaves the variables alone which it gave to
`Build`. -/
theorem values_represent :
    Represents sharing values (fun cs vars vars' => vars = vars' ∧ Untouched cs)
      fun cs vars _ => Shows cs vars where
  later c cs vars vars' h := ⟨h.1, h.2.of_cons⟩
  laterM c cs vars _ m x hx := by
    cases hx with
    | absent => exact .absent
    | own v => exact .own v
    | shared hv hcs => exact .shared hv fun w hw => hcs w (List.mem_cons_of_mem c hw)
  newString v cs vars vars' h := by
    refine ⟨⟨congrArg (· ++ [v]) h.1, h.2⟩, fun m x hx => ?_⟩
    cases hx with
    | absent => exact .absent
    | own w => exact .own w
    | shared hv hcs => exact .shared (getElem?_concat_of_some hv v) hcs
  write i v cs vars vars' h := by
    obtain ⟨rfl, hcs⟩ := h
    simp only [sharing, values]
    cases vars[i]? with
    | none => exact .none
    | some w => exact .some ⟨⟨rfl, hcs.of_cons⟩, fun m x hx => hx.write⟩
  read i cs vars vars' h := congrArg (·[i]?) h.1
  newMessage _ _ _ _ := .absent
  build i cs vars vars' h := by
    obtain ⟨rfl, hcs⟩ := h
    cases i with
    | none => exact .some .absent
    | some i =>
        simp only [sharing, values]
        cases hv : vars[i]? with
        | none => exact .none
        | some v =>
            exact .some (.shared hv fun w hw => List.rel_of_pairwise_cons hcs hw i w rfl rfl)
  get cs vars vars' m x h hx := by
    cases hx with
    | none => rfl
    | some hx =>
        cases hx with
        | absent => rfl
        | own v => rfl
        | shared hv hcs => simp [sharing, values, Content.text, hv, Server.OpaqueMessage.build,
            Server.OpaqueMessage.getMessage]
  has cs vars vars' m x hx := by
    cases hx with
    | none => rfl
    | some hx => cases hx <;> rfl
  set v cs vars vars' m x h hx := ⟨h, .own v, fun _ _ hn => hn⟩
  clear _ _ _ _ _ _ := .absent
  reset _ _ _ _ _ _ := .absent

end Values

/-! ## What programs see -/

/-- A program starts without variables and messages. -/
def start (store : T) : Program T M := ⟨store, []⟩

section Main

variable {X : Presence} (hX : X.Lawful)

theorem related_start (cs : List Call) :
    Related (fun _ => Vars) (fun _ h _ => Holds X h) cs (start ⟨[], []⟩) (start []) := by
  have hvars : Vars ⟨[], []⟩ [] := ⟨List.nodup_nil, rfl, fun i p hp => by simp at hp⟩
  exact ⟨hvars, .nil⟩

/-- A content that was set stays. -/
theorem own_of_after {cs cs' : List Call} {x : ℕ} {v : String} {a b : Program (List String) Content}
    (hcs' : ∀ c ∈ cs', c.changes x = false)
    (h : after sharing.step a (cs ++ .set (some x) v :: cs') = some b) :
    b.messages[x]? = some (.own v) := by
  rw [after_append] at h
  obtain ⟨a₁, -, hrest⟩ := Option.bind_eq_some_iff.mp h
  obtain ⟨r, a₂, hset, hlast⟩ := after_cons_eq_some.mp hrest
  obtain ⟨⟨i, m⟩, htarget, hstep⟩ := Option.map_eq_some_iff.mp hset
  obtain ⟨m', hm, hi⟩ := Option.map_eq_some_iff.mp htarget
  cases hi
  cases hstep
  refine after_invariant
    (fun c hc s r t hst hs => sharing.step_messages hst (hcs' c hc) hs) hlast ?_
  exact List.getElem?_set_self (List.getElem?_eq_some_iff.mp hm).1

include hX

/-- Whatever calls a program makes in whatever order, the generated code replies as if
every message had no text, a text of its own that `SetMessage` copied, or the variable
that `Build` was given; and it stops at the same calls, those that change a nil message. -/
theorem heap_sharing (cs : List Call) :
    replies (onHeap X).step (start ⟨[], []⟩) cs = replies sharing.step (start []) cs :=
  replies_eq (sharing_represents hX).step_alike cs _ _ (related_start cs)

omit hX in
theorem heap_sharing_jane :
    replies (onHeap bits).step (start ⟨[], []⟩)
        [.newString "Jane", .build (some 0), .write 0 "Joe", .get (some 0), .set (some 0) "Jim",
          .write 0 "Jack", .get (some 0), .clear none, .get (some 0)] =
      [.done, .done, .done, .text "Joe", .done, .done, .text "Jim"] :=
  (heap_sharing lawful_bits _).trans (by decide)

/-- To a program that never writes to a variable after giving it to `Build`, the messages
are the plain optional texts of the server model. -/
theorem heap_values (cs : List Call) (hcs : Untouched cs) :
    replies (onHeap X).step (start ⟨[], []⟩) cs = replies values.step (start []) cs := by
  have hsharing : replies (onHeap X).step (start ⟨[], []⟩) cs =
      replies sharing.step (start []) cs :=
    replies_eq (sharing_represents hX).step_alike cs _ _ (related_start cs)
  rw [hsharing]
  exact replies_eq values_represent.step_alike cs _ _ ⟨⟨rfl, hcs⟩, .nil⟩

omit hX in
theorem heap_values_jane :
    replies (onHeap bits).step (start ⟨[], []⟩)
        [.newString "Jane", .write 0 "Joe", .build (some 0), .get (some 0), .clear (some 0),
          .has (some 0), .get none] =
      [.done, .done, .done, .text "Joe", .done, .flag false, .text ""] :=
  (heap_values lawful_bits _ (by simp [Untouched])).trans (by decide)

/-- A text that was set stays: whatever a program does before, and whatever it does after,
as long as it changes the message itself no more, `GetMessage` gives the text. -/
theorem set_stays (cs cs' : List Call) (x : ℕ) (v : String) (s : Program Heap Message)
    (hcs' : ∀ c ∈ cs', c.changes x = false)
    (hs : after (onHeap X).step (start ⟨[], []⟩) (cs ++ .set (some x) v :: cs') = some s) :
    (onHeap X).step s (.get (some x)) = some (.text v, s) ∧
      (onHeap X).step s (.has (some x)) = some (.flag true, s) := by
  have hrel := after_rel (sharing_represents hX).step_alike (cs ++ .set (some x) v :: cs') _ _
    (related_start _)
  rw [hs] at hrel
  generalize hafter : after sharing.step (start []) (cs ++ .set (some x) v :: cs') = y at hrel
  cases hrel with
  | @some _ a hrelated =>
      have hown := own_of_after hcs' hafter
      have hmessage := forall₂_getElem? hrelated.2 x
      rw [hown] at hmessage
      generalize hm : s.messages[x]? = y at hmessage
      cases hmessage with
      | @some m _ hholds =>
          have hget := hholds.getMessage_eq hrelated.1
          have hhas := hholds.hasMessage_eq
          simp only [Content.text, Option.getD_some, Content.isPresent] at hget hhas
          simp only [Library.step, Program.receiver, hm, Option.map_some, onHeap, hget, hhas,
            and_self]

omit hX in
theorem set_stays_jane :
    ∃ s, (onHeap bits).step s (.get (some 0)) = some (.text "Jane", s) := by
  have hsome : (after (onHeap bits).step (start ⟨[], []⟩)
      ([.newMessage] ++ .set (some 0) "Jane" :: [.newMessage, .set (some 1) "Joe"])).isSome := rfl
  obtain ⟨s, hs⟩ := Option.isSome_iff_exists.mp hsome
  exact ⟨s, (set_stays lawful_bits [.newMessage] _ 0 "Jane" s (by decide) hs).1⟩

end Main

end Opaque

end Go

end ConnectExamples
