import ConnectExamples.Rust.Messages

/-!
# The generated views of the Rust crate

A view borrows its text from the bytes and keeps unknown fields as spans of them. The
server reads requests as views and the client reads replies as views, while the messages
that they were written from are owned. Reading the same bytes both ways gives the same
text, and bytes without unknown fields that are a message are also a view
(`decodeView_of_decode`). A view is written as it was read, with what it does not know
(`decode_writeTo_view`).
-/

namespace ConnectExamples

namespace Rust

namespace Buffa

open Wire Reader

/-- What the generated views use besides. `V` is the unknown fields of a view, and
`viewLoop` the loop of `MessageView::decode_view`. -/
structure ViewRuntime (U V E : Type) extends Runtime U E where
  borrowStr : Reader E String
  skipField : Tag → Reader E Unit
  noUnknown : V
  pushRecord : V → Bytes → ℕ → ℕ → Except E (V × ℕ)
  viewLoop : {M : Type} → (M → Reader E M) → M → Bytes → Except E M
  toOwned : V → Except E (List U)
  encodedLenView : V → ℕ
  writeUnknownView : V → Bytes

variable {U V E : Type}

/-- What the generated views rely on: a borrowed string is the string, a field that is
skipped ends where it ends when it is decoded, and a record is its span, which is written
as it was read. -/
structure ViewRuntime.Lawful (R : ViewRuntime U V E) : Prop extends R.toRuntime.Lawful where
  borrowStr_eq : R.borrowStr = R.mergeString ""
  skipField_prefixed : ∀ t, (R.skipField t).Prefixed
  skipField_agrees : ∀ t c b x rest rest', (R.decodeUnknownField t c).read b = .ok (x, rest) →
    (R.skipField t).read b = .ok ((), rest') → rest = rest'
  pushRecord_span : ∀ v b n c, R.pushRecord v b n c = R.pushRecord v (b.take n) n c
  viewLoop_drains : ∀ {M : Type} (step : M → Reader E M), (∀ m, (step m).Consuming) →
    Drains step (R.viewLoop step)
  toOwned_noUnknown : R.toOwned R.noUnknown = .ok []
  writeUnknownView_noUnknown : R.writeUnknownView R.noUnknown = []
  writeUnknownView_pushRecord : ∀ v b n c v' c', R.pushRecord v b n c = .ok (v', c') →
    R.writeUnknownView v' = R.writeUnknownView v ++ b.take n
  encodedLenView_eq : ∀ v, R.encodedLenView v = (R.writeUnknownView v).length

section WireRuntime

/-- The unknown fields of a span. -/
def fieldOf (span : Bytes) : Except Fault Field :=
  ((do let t ← tag; Field.decode t 1 : Reader Fault (Field × ℕ)).read span).map fun x => x.1.1

/-- The wire format, with spans that are kept as they are. -/
def wireViewRuntime : ViewRuntime Field (List Bytes) Fault where
  toRuntime := wireRuntime
  borrowStr := string
  skipField t := do
    let _ ← payload t.wireType
    return ()
  noUnknown := []
  pushRecord v b n c := if 0 < c then .ok (v ++ [b.take n], c - 1) else .error .limit
  viewLoop := drain
  toOwned v := v.mapM fieldOf
  encodedLenView v := v.flatten.length
  writeUnknownView v := v.flatten

theorem lawful_wireViewRuntime : wireViewRuntime.Lawful where
  toLawful := lawful_wireRuntime
  borrowStr_eq := rfl
  skipField_prefixed t := (prefixed_payload _).bind fun _ => Prefixed.pure _
  skipField_agrees t c b x rest rest' h h' := by
    obtain ⟨p, middle, hp, hfield⟩ := read_bind_eq_ok h
    obtain ⟨p', middle', hp', hskip⟩ := read_bind_eq_ok h'
    cases hp.symm.trans hp'
    cases hskip
    split at hfield
    · cases hfield
      rfl
    · cases hfield
  pushRecord_span v b n c := by
    simp only [wireViewRuntime, List.take_take, Nat.min_self]
  viewLoop_drains step hstep := drains_drain hstep
  toOwned_noUnknown := rfl
  writeUnknownView_noUnknown := rfl
  writeUnknownView_pushRecord v b n c v' c' h := by
    simp only [wireViewRuntime] at h
    split at h
    · cases h
      simp [wireViewRuntime]
    · cases h
  encodedLenView_eq _ := rfl

end WireRuntime

/-- `EchoRequestView` and `EchoResponseView`. -/
structure EchoView (V : Type) where
  message : Option String
  unknownFields : V

abbrev EchoRequestView := EchoView

abbrev EchoResponseView := EchoView

namespace EchoView

section Source

variable (R : ViewRuntime U V E)

def default : EchoView V := ⟨none, R.noUnknown⟩

/-- `merge_view_field`: the tag was read from `before`, and `cur` is what follows it. -/
def mergeViewField (view : EchoView V) (tag : Tag) (cur before : Bytes) (c : ℕ) :
    Except E ((EchoView V × ℕ) × Bytes) :=
  match tag.fieldNumber with
  | 1 => do
      R.checkWireType tag .lengthDelimited
      let (s, cur) ← R.borrowStr.read cur
      return (({ view with message := some s }, c), cur)
  | _ => do
      let (_, cur) ← (R.skipField tag).read cur
      let spanLen := before.length - cur.length
      let (unknown, c) ← R.pushRecord view.unknownFields before spanLen c
      return (({ view with unknownFields := unknown }, c), cur)

/-- One round of `decode_view`. -/
def viewStep (x : EchoView V × ℕ) : Reader E (EchoView V × ℕ) where
  read before := do
    let (tag, cur) ← R.decodeTag.read before
    mergeViewField R x.1 tag cur before x.2

def decodeView (b : Bytes) : Except E (EchoView V) :=
  (R.viewLoop (viewStep R) (default R, R.unknownFieldLimit) b).map Prod.fst

def toOwnedMessage (view : EchoView V) : Except E (EchoMessage U) := do
  let unknownFields ← R.toOwned view.unknownFields
  return ⟨view.message, unknownFields⟩

/-- `compute_size` of a view, in 32 bits. -/
def computeSize (view : EchoView V) : UInt32 :=
  let size : UInt32 := 0
  let size :=
    match view.message with
    | some v => size + (1 + UInt32.ofNat (R.stringEncodedLen v))
    | none => size
  size + UInt32.ofNat (R.encodedLenView view.unknownFields)

def writeTo (view : EchoView V) : Bytes :=
  (match view.message with
    | some v => R.putStringField 1 v
    | none => []) ++ R.writeUnknownView view.unknownFields

/-- `from_owned`: the message is encoded and decoded. -/
def fromOwned (m : EchoMessage U) : Except E (EchoView V) := decodeView R (m.writeTo R.toRuntime)

end Source

variable {R : ViewRuntime U V E} (hR : R.Lawful)

section Step

theorem mergeViewField_of_ne (view : EchoView V) {t : Tag} (h : t.fieldNumber ≠ 1)
    (cur before : Bytes) (c : ℕ) :
    mergeViewField R view t cur before c = (do
      let (_, cur) ← (R.skipField t).read cur
      let spanLen := before.length - cur.length
      let (unknown, c) ← R.pushRecord view.unknownFields before spanLen c
      return (({ view with unknownFields := unknown }, c), cur)) := by
  unfold mergeViewField
  split
  · exact absurd ‹_› h
  · rfl

/-- What one round of `decode_view` can do. -/
theorem viewStep_cases (hR : R.Lawful) {v v₁ : EchoView V} {c c₁ : ℕ} {b rest : Bytes}
    (h : (viewStep R (v, c)).read b = .ok ((v₁, c₁), rest)) :
    (∃ s middle, R.decodeTag.read b = .ok (⟨1, .lengthDelimited⟩, middle) ∧
        R.borrowStr.read middle = .ok (s, rest) ∧ v₁ = { v with message := some s } ∧ c₁ = c) ∨
      ∃ t unknown middle, t.fieldNumber ≠ 1 ∧ R.decodeTag.read b = .ok (t, middle) ∧
        (R.skipField t).read middle = .ok ((), rest) ∧
        R.pushRecord v.unknownFields b (b.length - rest.length) c = .ok (unknown, c₁) ∧
        v₁ = { v with unknownFields := unknown } := by
  obtain ⟨⟨⟨n, w⟩, middle⟩, htag, hfield⟩ := exists_of_bind_eq_ok h
  by_cases hn : n = 1
  · subst hn
    obtain ⟨_, hcheck, hfield⟩ := exists_of_bind_eq_ok hfield
    obtain ⟨⟨s, last⟩, hstring, hlast⟩ := exists_of_bind_eq_ok hfield
    obtain rfl := (hR.checkWireType_eq _ _).mp hcheck
    cases hlast
    exact .inl ⟨s, middle, htag, hstring, rfl, rfl⟩
  · have hfield := (mergeViewField_of_ne v hn middle b c).symm.trans hfield
    obtain ⟨⟨_, last⟩, hskip, hfield⟩ := exists_of_bind_eq_ok hfield
    obtain ⟨⟨unknown, c'⟩, hpush, hlast⟩ := exists_of_bind_eq_ok hfield
    cases hlast
    exact .inr ⟨_, unknown, middle, hn, htag, hskip, hpush, rfl⟩

/-- A message field is read by both kinds of rounds alike. -/
theorem viewStep_of_message (hR : R.Lawful) {s : String} {b middle rest : Bytes}
    (htag : R.decodeTag.read b = .ok (⟨1, .lengthDelimited⟩, middle))
    (hstring : R.borrowStr.read middle = .ok (s, rest)) (v : EchoView V) (c : ℕ) :
    (viewStep R (v, c)).read b = .ok (({ v with message := some s }, c), rest) := by
  have hcheck : R.checkWireType ⟨1, .lengthDelimited⟩ .lengthDelimited = .ok () :=
    (hR.checkWireType_eq _ _).mpr rfl
  simp only [viewStep, htag, mergeViewField, hcheck, hstring, bind, Except.bind, pure,
    Except.pure]

theorem viewStep_of_unknown {t : Tag} {u : V} {b middle rest : Bytes} {c c₁ : ℕ}
    {v : EchoView V} (hne : t.fieldNumber ≠ 1) (htag : R.decodeTag.read b = .ok (t, middle))
    (hskip : (R.skipField t).read middle = .ok ((), rest))
    (hpush : R.pushRecord v.unknownFields b (b.length - rest.length) c = .ok (u, c₁)) :
    (viewStep R (v, c)).read b = .ok (({ v with unknownFields := u }, c₁), rest) := by
  simp only [viewStep, htag, mergeViewField_of_ne v hne, hskip, hpush, bind, Except.bind, pure,
    Except.pure]

include hR

theorem viewStep_consuming (x : EchoView V × ℕ) : (viewStep R x).Consuming := by
  rintro b ⟨v₁, c₁⟩ rest h
  rcases viewStep_cases hR h with
    ⟨s, middle, htag, hstring, rfl, rfl⟩ | ⟨t, u, middle, hne, htag, hskip, hpush, rfl⟩
  · obtain ⟨head, rfl, hhead, hreads⟩ := hR.decodeTag_consuming _ _ _ htag
    have hprefixed : R.borrowStr.Prefixed := by
      rw [hR.borrowStr_eq]
      exact hR.mergeString_prefixed ""
    obtain ⟨body, rfl, hbody⟩ := hprefixed _ _ _ hstring
    refine ⟨head ++ body, (List.append_assoc ..).symm,
      List.append_ne_nil_of_left_ne_nil hhead body, fun rest' => ?_⟩
    rw [List.append_assoc]
    exact viewStep_of_message hR (hreads _) (hbody rest') x.1 x.2
  · obtain ⟨head, rfl, hhead, hreads⟩ := hR.decodeTag_consuming _ _ _ htag
    obtain ⟨body, rfl, hbody⟩ := hR.skipField_prefixed t _ _ _ hskip
    refine ⟨head ++ body, (List.append_assoc ..).symm,
      List.append_ne_nil_of_left_ne_nil hhead body, fun rest' => ?_⟩
    -- the span is the same, whatever follows it
    have hspan (r : Bytes) : R.pushRecord x.1.unknownFields (head ++ (body ++ r))
        ((head ++ (body ++ r)).length - r.length) x.2 =
          R.pushRecord x.1.unknownFields (head ++ body) (head ++ body).length x.2 := by
      have hlength : (head ++ (body ++ r)).length - r.length = (head ++ body).length := by
        simp only [List.length_append]
        omega
      rw [hR.pushRecord_span, hlength, ← List.append_assoc, List.take_left']
      rfl
    rw [hspan] at hpush
    rw [List.append_assoc]
    refine viewStep_of_unknown hne (hreads _) (hbody rest') ?_
    rw [hspan]
    exact hpush

end Step

section Main

include hR

theorem drains_view : Drains (viewStep R) (R.viewLoop (viewStep R)) :=
  hR.viewLoop_drains _ (viewStep_consuming hR)

/-- Rounds of both kinds that read the same bytes with the same text go on with the same
text, where both succeed. -/
theorem steps_agree (x : EchoMessage U × ℕ) (y : EchoView V × ℕ) (b : Bytes)
    (x₁ : EchoMessage U × ℕ) (y₁ : EchoView V × ℕ) (rest rest' : Bytes)
    (hxy : y.1.message = x.1.message)
    (hx : (EchoMessage.mergeStep R.toRuntime x).read b = .ok (x₁, rest))
    (hy : (viewStep R y).read b = .ok (y₁, rest')) :
    y₁.1.message = x₁.1.message ∧ rest = rest' := by
  rcases EchoMessage.mergeStep_cases hR.toLawful hx with
    ⟨s, middle, htag, hstring, hx₁, -⟩ | ⟨t, u, middle, hne, htag, hunknown, hx₁⟩ <;>
  rcases viewStep_cases hR hy with
    ⟨s', middle', htag', hstring', hy₁, -⟩ | ⟨t', u', middle', hne', htag', hskip, -, hy₁⟩
  · cases htag.symm.trans htag'
    rw [hR.borrowStr_eq] at hstring'
    cases hstring.symm.trans hstring'
    rw [hx₁, hy₁]
    exact ⟨rfl, rfl⟩
  · cases htag.symm.trans htag'
    exact absurd rfl hne'
  · cases htag.symm.trans htag'
    exact absurd rfl hne
  · cases htag.symm.trans htag'
    rw [hx₁, hy₁]
    exact ⟨hxy, hR.skipField_agrees _ _ _ _ _ _ hunknown hskip⟩

/-- Bytes from which no unknown field is stored are read as a view. -/
theorem viewLoop_of_merge {x x' : EchoMessage U × ℕ} {b : Bytes}
    (h : R.merge (EchoMessage.mergeStep R.toRuntime) x b = .ok x')
    (hnone : x'.1.unknownFields = []) (u : V) (c : ℕ) :
    R.viewLoop (viewStep R) (⟨x.1.message, u⟩, c) b = .ok (⟨x'.1.message, u⟩, c) := by
  have hview := drains_view hR
  refine ((EchoMessage.drains hR.toLawful).induction
    (EchoMessage.mergeStep_consuming hR.toLawful)
    (motive := fun x b x' => x'.1.unknownFields = [] → x.1.unknownFields = [] ∧
      R.viewLoop (viewStep R) (⟨x.1.message, u⟩, c) b = .ok (⟨x'.1.message, u⟩, c))
    (fun x hx => ⟨hx, hview.nil _⟩)
    (fun x bs x₁ rest x' hbs hreads _ ih hx' => ?_) h hnone).2
  obtain ⟨hx₁, hrest⟩ := ih hx'
  have hne : bs ++ rest ≠ [] := List.append_ne_nil_of_left_ne_nil hbs rest
  rcases EchoMessage.mergeStep_cases hR.toLawful (hreads rest) with
    ⟨s, middle, htag, hstring, hm₁, -⟩ | ⟨t, u', middle, -, -, -, hm₁⟩
  · rw [← hR.borrowStr_eq] at hstring
    have hstep := viewStep_of_message hR htag hstring ⟨x.1.message, u⟩ c
    rw [hm₁] at hx₁ hrest
    exact ⟨hx₁, (hview.step_ok _ _ _ _ hne hstep).trans hrest⟩
  · -- an unknown field that is stored stays
    rw [hm₁] at hx₁
    simp at hx₁

/-- Bytes that are decoded to a message without unknown fields are read as a view, which
gives the message back. -/
theorem decodeView_of_decode {b : Bytes} {m : EchoMessage U}
    (hm : EchoMessage.decode R.toRuntime b = .ok m) (hnone : m.unknownFields = []) :
    ∃ v, decodeView R b = .ok v ∧ v.message = m.message ∧ v.toOwnedMessage R = .ok m := by
  obtain ⟨⟨m, c⟩, hmerge, rfl⟩ := exists_of_map_eq_ok hm
  have hview := viewLoop_of_merge hR hmerge hnone R.noUnknown R.unknownFieldLimit
  obtain ⟨message, unknownFields⟩ := m
  obtain rfl : unknownFields = [] := hnone
  refine ⟨⟨message, R.noUnknown⟩, congrArg (Except.map Prod.fst) hview, rfl, ?_⟩
  simp only [toOwnedMessage, hR.toOwned_noUnknown]
  rfl

theorem decodeView_writeTo {text : Option String}
    (htext : ∀ s, text = some s → s.utf8ByteSize < 2 ^ 31) :
    ∃ v, decodeView R (EchoMessage.writeTo R.toRuntime ⟨text, []⟩) = .ok v ∧ v.message = text ∧
      v.toOwnedMessage R = .ok ⟨text, []⟩ := by
  have hwell : (⟨text, []⟩ : EchoMessage U).WellFormed R.toRuntime :=
    ⟨fun u hu => (List.not_mem_nil hu).elim, htext⟩
  exact decodeView_of_decode hR
    (EchoMessage.decode_of_wellFormed hR.toLawful hwell (Nat.zero_le _)) rfl

/-- Owned messages and views read the same bytes alike. Where both succeed they have the
same text; bytes from which the message stores no unknown field are also read as a view,
and the view gives the message back. So a message without unknown fields becomes a view
with the same text, and that view the same message. -/
theorem views_agree :
    (∀ b v m, decodeView R b = .ok v → EchoMessage.decode R.toRuntime b = .ok m →
        v.message = m.message) ∧
      (∀ b m, EchoMessage.decode R.toRuntime b = .ok m → m.unknownFields = [] →
        ∃ v, decodeView R b = .ok v ∧ v.message = m.message ∧ v.toOwnedMessage R = .ok m) ∧
      ∀ text : Option String, (∀ s, text = some s → s.utf8ByteSize < 2 ^ 31) →
        ∃ v, fromOwned R ⟨text, []⟩ = .ok v ∧ v.message = text ∧
          v.toOwnedMessage R = .ok ⟨text, []⟩ := by
  refine ⟨fun b v m hv hm => ?_, fun b m hm hnone => decodeView_of_decode hR hm hnone,
    fun text htext => decodeView_writeTo hR htext⟩
  obtain ⟨x, hmerge, rfl⟩ := exists_of_map_eq_ok hm
  obtain ⟨y, hview, rfl⟩ := exists_of_map_eq_ok hv
  exact (EchoMessage.drains hR.toLawful).agree (EchoMessage.mergeStep_consuming hR.toLawful)
    (drains_view hR) (steps_agree hR) rfl hmerge hview

omit hR in
theorem views_agree_jane : ∃ v, fromOwned wireViewRuntime ⟨some "Jane", []⟩ = .ok v ∧
    v.message = some "Jane" ∧ v.toOwnedMessage wireViewRuntime = .ok ⟨some "Jane", []⟩ :=
  (views_agree lawful_wireViewRuntime).2.2 (some "Jane") EchoMessage.wellFormed_jane.size

end Main

section Write

/-- The spans of a view are decoded to the unknown fields of the message, under the limit
that the message has left. -/
def Spans (R : ViewRuntime U V E) (x : EchoMessage U × ℕ) (y : EchoView V × ℕ) : Prop :=
  y.1.message = x.1.message ∧
    EchoMessage.merge R.toRuntime EchoMessage.default R.unknownFieldLimit
      (R.writeUnknownView y.1.unknownFields) = .ok (⟨none, x.1.unknownFields⟩, x.2)

include hR

/-- The rounds of a message and of a view keep the spans. -/
theorem steps_spans (x : EchoMessage U × ℕ) (y : EchoView V × ℕ) (b : Bytes)
    (x₁ : EchoMessage U × ℕ) (y₁ : EchoView V × ℕ) (rest rest' : Bytes) (hxy : Spans R x y)
    (hx : (EchoMessage.mergeStep R.toRuntime x).read b = .ok (x₁, rest))
    (hy : (viewStep R y).read b = .ok (y₁, rest')) : Spans R x₁ y₁ ∧ rest = rest' := by
  obtain ⟨hmessage, hspans⟩ := hxy
  obtain ⟨hagree, rfl⟩ := steps_agree hR x y b x₁ y₁ rest rest' hmessage hx hy
  refine ⟨⟨hagree, ?_⟩, rfl⟩
  rcases EchoMessage.mergeStep_cases hR.toLawful hx with
    ⟨s, middle, htag, -, hx₁, hc₁⟩ | ⟨t, u, middle, hne, htag, hunknown, hx₁⟩ <;>
  rcases viewStep_cases hR hy with
    ⟨s', middle', htag', -, hy₁, -⟩ | ⟨t', u', middle', hne', htag', -, hpush, hy₁⟩
  · rw [hx₁, hy₁, hc₁]
    exact hspans
  · cases htag.symm.trans htag'
    exact absurd rfl hne'
  · cases htag.symm.trans htag'
    exact absurd rfl hne
  · -- the span is read on its own as it was read before
    have hdrains := EchoMessage.drains hR.toLawful
    have hconsuming := EchoMessage.mergeStep_consuming hR.toLawful
    have halone := EchoMessage.mergeStep_of_unknown (m := ⟨none, x.1.unknownFields⟩) hne htag
      hunknown
    obtain ⟨span, rfl, hspan, hreads⟩ := hconsuming _ _ _ _ halone
    have hwrite := hR.writeUnknownView_pushRecord _ _ _ _ _ _ hpush
    rw [List.length_append, Nat.add_sub_cancel, List.take_left' rfl] at hwrite
    have hread := hreads []
    rw [List.append_nil] at hread
    rw [hx₁, hy₁]
    change EchoMessage.merge _ _ _ (R.writeUnknownView u') = _
    rw [hwrite]
    exact (hdrains.append hconsuming hspans span).trans
      ((hdrains.step_ok _ _ _ _ hspan hread).trans (hdrains.nil _))

/-- In 32 bits the computed size is the number of bytes written. -/
theorem computeSize_eq (v : EchoView V) :
    v.computeSize R = UInt32.ofNat (v.writeTo R).length := by
  rw [computeSize, hR.encodedLenView_eq]
  exact EchoMessage.size_append hR.toLawful v.message (R.writeUnknownView v.unknownFields)

/-- A view is written without being made a message first, and nothing is lost: where the
same bytes are also decoded to a message, with any unknown fields, what the view is
written as is decoded to this message too, and the computed size is the number of bytes
written, as long as 32 bits hold it. -/
theorem decode_writeTo_view {b : Bytes} {v : EchoView V} {m : EchoMessage U}
    (hb : b.length < 2 ^ 31) (hv : decodeView R b = .ok v)
    (hm : EchoMessage.decode R.toRuntime b = .ok m) :
    EchoMessage.decode R.toRuntime (v.writeTo R) = .ok m ∧
      ((v.writeTo R).length < 2 ^ 32 → (v.computeSize R).toNat = (v.writeTo R).length) := by
  refine ⟨?_, fun hlength => ?_⟩
  · have hwell := (EchoMessage.wellFormed_of_decode hR.toLawful hb hm).1
    obtain ⟨⟨m, c⟩, hmerge, rfl⟩ := exists_of_map_eq_ok hm
    obtain ⟨⟨v, c'⟩, hview, rfl⟩ := exists_of_map_eq_ok hv
    have hdrains := EchoMessage.drains hR.toLawful
    have hstart : Spans R (EchoMessage.default, R.unknownFieldLimit)
        (default R, R.unknownFieldLimit) := by
      refine ⟨rfl, ?_⟩
      rw [default, hR.writeUnknownView_noUnknown]
      exact hdrains.nil _
    obtain ⟨hmessage, hspans⟩ := hdrains.agree (EchoMessage.mergeStep_consuming hR.toLawful)
      (drains_view hR) (steps_spans hR) hstart hmerge hview
    obtain ⟨message, us⟩ := m
    obtain ⟨message', us'⟩ := v
    obtain rfl : message' = message := hmessage
    cases message' with
    | none =>
        rw [EchoMessage.decode, writeTo, List.nil_append]
        exact congrArg (Except.map Prod.fst) hspans
    | some text =>
        have hover := EchoMessage.merge_over hR.toLawful ⟨some text, []⟩ EchoMessage.default
          R.unknownFieldLimit (R.writeUnknownView us')
        rw [hspans] at hover
        rw [EchoMessage.decode, writeTo, EchoMessage.merge_putStringField hR.toLawful _
          (hwell.size text rfl)]
        exact congrArg (Except.map Prod.fst) hover
  · rw [computeSize_eq hR, UInt32.toNat_ofNat']
    exact Nat.mod_eq_of_lt hlength

omit hR in
theorem decodeView_jane : decodeView wireViewRuntime (EchoMessage.jane.writeTo wireRuntime) =
    .ok ⟨some "Jane", [Field.write ⟨2, .varint 300⟩]⟩ := by
  have hdrains := drains_view lawful_wireViewRuntime
  have hbytes : EchoMessage.jane.writeTo wireRuntime = writeTag ⟨1, .lengthDelimited⟩ ++
      (writeDelimited (utf8 "Jane") ++ Field.write ⟨2, .varint 300⟩) := by
    rw [← List.append_assoc]
    exact congrArg _ (List.append_nil _)
  have hskip : (wireViewRuntime.skipField ⟨2, .varint⟩).read
      (Payload.write (.varint 300)) = .ok ((), []) := by
    have hbody : 300 < 2 ^ 64 := by decide
    have hread := reads_payload (p := .varint 300) hbody []
    rw [List.append_nil] at hread
    exact read_bind_of_ok hread
  have htext := viewStep_of_message lawful_wireViewRuntime
    (reads_tag (t := ⟨1, .lengthDelimited⟩) (by decide) (by decide) _)
    (reads_string ((EchoMessage.wellFormed_jane.size "Jane" rfl).trans (by norm_num))
      (Field.write ⟨2, .varint 300⟩))
    (default wireViewRuntime) 1000000
  have hfield := viewStep_of_unknown (R := wireViewRuntime) (v := ⟨some "Jane", []⟩) (c := 1000000)
    (t := ⟨2, .varint⟩) (by decide) (reads_tag (by decide) (by decide) _) hskip rfl
  rw [List.length_nil, Nat.sub_zero, List.take_length] at hfield
  have hne (t : Tag) (rest : Bytes) : writeTag t ++ rest ≠ [] :=
    List.append_ne_nil_of_left_ne_nil (writeTag_ne_nil _) rest
  have hloop := (hdrains.step_ok _ _ _ _ (hne _ _) htext).trans
    ((hdrains.step_ok _ _ _ _ (hne _ _) hfield).trans (hdrains.nil _))
  rw [decodeView, hbytes]
  exact congrArg (Except.map Prod.fst) hloop

omit hR in
/-- The field that the code does not know is still there. -/
theorem decode_writeTo_view_jane :
    EchoMessage.decode wireRuntime
      (EchoView.writeTo wireViewRuntime ⟨some "Jane", [Field.write ⟨2, .varint 300⟩]⟩) =
        .ok EchoMessage.jane := by
  have hlength : (EchoMessage.jane.writeTo wireRuntime).length < 2 ^ 31 := by
    rw [EchoMessage.length_jane]
    norm_num
  have hdecode := EchoMessage.decode_of_wellFormed lawful_wireRuntime EchoMessage.wellFormed_jane
    (by decide)
  exact (decode_writeTo_view lawful_wireViewRuntime hlength decodeView_jane hdecode).1

end Write

end EchoView

end Buffa

end Rust

end ConnectExamples
