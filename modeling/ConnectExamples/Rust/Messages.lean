import ConnectExamples.Rust.Buffa

/-!
# The generated messages of the Rust crate

`EchoRequest` and `EchoResponse` are generated as the same code over one string field
and the unknown fields that decoding keeps. Every message is decoded from its encoding,
and what is accepted is such an encoding up to the order and the spelling of its fields;
bytes that follow each other merge.
-/

namespace ConnectExamples

namespace Rust

namespace Buffa

open Wire Reader

variable {U E : Type}

/-- `EchoRequest` and `EchoResponse`, with their unknown fields. -/
structure EchoMessage (U : Type) where
  message : Option String
  unknownFields : List U
  deriving DecidableEq

abbrev EchoRequest := EchoMessage

abbrev EchoResponse := EchoMessage

namespace EchoMessage

section Source

variable (R : Runtime U E)

def default : EchoMessage U := ⟨none, []⟩

def withMessage (m : EchoMessage U) (value : String) : EchoMessage U :=
  { m with message := some value }

/-- `compute_size`, in 32 bits. -/
def computeSize (m : EchoMessage U) : UInt32 :=
  let size : UInt32 := 0
  let size :=
    match m.message with
    | some v => size + (1 + UInt32.ofNat (R.stringEncodedLen v))
    | none => size
  size + UInt32.ofNat (R.encodedLen m.unknownFields)

def writeTo (m : EchoMessage U) : Bytes :=
  (match m.message with
    | some v => R.putStringField 1 v
    | none => []) ++ R.writeUnknown m.unknownFields

/-- `merge_field`, with what is left of the limit. -/
def mergeField (m : EchoMessage U) (tag : Tag) (c : ℕ) : Reader E (EchoMessage U × ℕ) :=
  match tag.fieldNumber with
  | 1 => do
      ofExcept (R.checkWireType tag .lengthDelimited)
      let s ← R.mergeString (m.message.getD "")
      return ({ m with message := some s }, c)
  | _ => do
      let (u, c) ← R.decodeUnknownField tag c
      return ({ m with unknownFields := m.unknownFields ++ [u] }, c)

def clear (_ : EchoMessage U) : EchoMessage U := ⟨none, []⟩

/-- One round of `merge`. -/
def mergeStep (x : EchoMessage U × ℕ) : Reader E (EchoMessage U × ℕ) := do
  let tag ← R.decodeTag
  mergeField R x.1 tag x.2

/-- `merge`, with a limit. -/
def merge (m : EchoMessage U) (c : ℕ) (b : Bytes) : Except E (EchoMessage U × ℕ) :=
  R.merge (mergeStep R) (m, c) b

def decode (b : Bytes) : Except E (EchoMessage U) :=
  (merge R default R.unknownFieldLimit b).map Prod.fst

end Source

variable {R : Runtime U E} (hR : R.Lawful)

section Fields

theorem mergeField_one (m : EchoMessage U) (w : WireType) (c : ℕ) :
    mergeField R m ⟨1, w⟩ c = (do
      ofExcept (R.checkWireType ⟨1, w⟩ .lengthDelimited)
      let s ← R.mergeString (m.message.getD "")
      return ({ m with message := some s }, c)) := rfl

theorem mergeField_of_ne (m : EchoMessage U) {t : Tag} (h : t.fieldNumber ≠ 1) (c : ℕ) :
    mergeField R m t c = (do
      let (u, c) ← R.decodeUnknownField t c
      return ({ m with unknownFields := m.unknownFields ++ [u] }, c)) := by
  unfold mergeField
  split
  · exact absurd ‹_› h
  · rfl

include hR

theorem mergeField_prefixed (m : EchoMessage U) (t : Tag) (c : ℕ) :
    (mergeField R m t c).Prefixed := by
  unfold mergeField
  split
  · exact (Prefixed.ofExcept _).bind fun _ =>
      (hR.mergeString_prefixed _).bind fun _ => Prefixed.pure _
  · exact (hR.decodeUnknownField_prefixed t c).bind fun _ => Prefixed.pure _

theorem mergeStep_consuming (x : EchoMessage U × ℕ) : (mergeStep R x).Consuming :=
  hR.decodeTag_consuming.bind fun t => mergeField_prefixed hR x.1 t x.2

theorem drains : Drains (mergeStep R) (R.merge (mergeStep R)) :=
  hR.merge_drains _ (mergeStep_consuming hR)

/-- A message field is read, and replaces what was there. -/
theorem mergeStep_reads_message (m : EchoMessage U) (c : ℕ) {v : String}
    (hv : v.utf8ByteSize < 2 ^ 31) :
    (mergeStep R (m, c)).Reads (R.putStringField 1 v) ({ m with message := some v }, c) := by
  obtain ⟨head, body, hput, -, hhead, hbody⟩ :=
    hR.putStringField_reads 1 v (by decide) (by decide) hv
  have hcheck : R.checkWireType ⟨1, .lengthDelimited⟩ .lengthDelimited = .ok () :=
    (hR.checkWireType_eq _ _).mpr rfl
  intro rest
  rw [hput, List.append_assoc, mergeStep, read_bind_of_ok (hhead _), mergeField_one, hcheck,
    read_ofExcept_bind, hR.mergeString_replaces,
    read_bind_of_ok (hbody rest), read_pure]

theorem mergeStep_reads_unknown (m : EchoMessage U) (c : ℕ) {u : U} (hu : R.Readable u)
    (hne : (R.tagOf u).fieldNumber ≠ 1) :
    (mergeStep R (m, c + R.cost u)).Reads (R.writeUnknown [u])
      ({ m with unknownFields := m.unknownFields ++ [u] }, c) := by
  obtain ⟨head, body, hwrite, -, hhead, hbody⟩ := hR.writeUnknown_reads u c hu
  intro rest
  rw [hwrite, List.append_assoc, mergeStep, read_bind_of_ok (hhead _), mergeField_of_ne m hne,
    read_bind_of_ok (hbody rest), read_pure]

end Fields

section RoundTrip

/-- A message that its own encoding gives back: its unknown fields are unknown and can be
read, and its text is not too long. -/
structure WellFormed (R : Runtime U E) (m : EchoMessage U) : Prop where
  readable : ∀ u ∈ m.unknownFields, R.Readable u ∧ (R.tagOf u).fieldNumber ≠ 1
  size : ∀ v, m.message = some v → v.utf8ByteSize < 2 ^ 31

/-- What the unknown fields take of the limit. -/
def totalCost (R : Runtime U E) (m : EchoMessage U) : ℕ := (m.unknownFields.map R.cost).sum

include hR

theorem writeUnknown_nil : R.writeUnknown [] = [] := by
  have hdouble := congrArg List.length (hR.writeUnknown_append [] [])
  rw [List.length_append] at hdouble
  exact List.length_eq_zero_iff.mp (by simpa using hdouble)

theorem merge_writeUnknown (m : EchoMessage U) (c : ℕ) (us : List U)
    (hus : ∀ u ∈ us, R.Readable u ∧ (R.tagOf u).fieldNumber ≠ 1) :
    merge R m (c + (us.map R.cost).sum) (R.writeUnknown us) =
      .ok ({ m with unknownFields := m.unknownFields ++ us }, c) := by
  induction us generalizing m with
  | nil =>
      rw [writeUnknown_nil hR, merge, (drains hR).nil]
      simp
  | cons u us ih =>
      obtain ⟨hreadable, hne⟩ := hus u List.mem_cons_self
      have hread := mergeStep_reads_unknown hR m (c + (us.map R.cost).sum) hreadable hne
      obtain ⟨head, body, hwrite, hhead, -⟩ := hR.writeUnknown_reads u 0 hreadable
      have hnil : R.writeUnknown [u] ++ R.writeUnknown us ≠ [] := by
        rw [hwrite, List.append_assoc]
        exact List.append_ne_nil_of_left_ne_nil hhead _
      have hsum : c + ((u :: us).map R.cost).sum = c + (us.map R.cost).sum + R.cost u := by
        rw [List.map_cons, List.sum_cons]
        omega
      have htail := ih { m with unknownFields := m.unknownFields ++ [u] }
        fun v hv => hus v (List.mem_cons_of_mem u hv)
      rw [← List.singleton_append, hR.writeUnknown_append, List.singleton_append, hsum, merge,
        (drains hR).step_ok _ _ _ _ hnil (hread _)]
      rw [merge] at htail
      rw [htail, List.append_assoc, List.singleton_append]

/-- A message field at the front replaces the text. -/
theorem merge_putStringField (m : EchoMessage U) {v : String} (hv : v.utf8ByteSize < 2 ^ 31)
    (c : ℕ) (rest : Bytes) :
    merge R m c (R.putStringField 1 v ++ rest) = merge R (m.withMessage v) c rest := by
  have hread := mergeStep_reads_message hR m c hv
  obtain ⟨head, body, hput, hhead, -⟩ := hR.putStringField_reads 1 v (by decide) (by decide) hv
  have hnil : R.putStringField 1 v ++ rest ≠ [] := by
    rw [hput, List.append_assoc]
    exact List.append_ne_nil_of_left_ne_nil hhead _
  exact (drains hR).step_ok _ _ _ _ hnil (hread rest)

/-- Encoding and decoding give a message back. -/
theorem merge_writeTo {m : EchoMessage U} (hm : m.WellFormed R) (c : ℕ) :
    merge R default (c + m.totalCost R) (m.writeTo R) = .ok (m, c) := by
  obtain ⟨message, us⟩ := m
  cases message with
  | none => exact merge_writeUnknown hR default c us hm.readable
  | some v =>
      exact (merge_putStringField hR default (hm.size v rfl) _ _).trans
        (merge_writeUnknown hR (default.withMessage v) c us hm.readable)

end RoundTrip

section Accepted

/-- What one round of `merge` can do: it reads a message field and replaces the message,
or it stores an unknown field. -/
theorem mergeStep_cases (hR : R.Lawful) {m m₁ : EchoMessage U} {c c₁ : ℕ} {b rest : Bytes}
    (h : (mergeStep R (m, c)).read b = .ok ((m₁, c₁), rest)) :
    (∃ s middle, R.decodeTag.read b = .ok (⟨1, .lengthDelimited⟩, middle) ∧
        (R.mergeString "").read middle = .ok (s, rest) ∧
        m₁ = { m with message := some s } ∧ c₁ = c) ∨
      ∃ t u middle, t.fieldNumber ≠ 1 ∧ R.decodeTag.read b = .ok (t, middle) ∧
        (R.decodeUnknownField t c).read middle = .ok ((u, c₁), rest) ∧
        m₁ = { m with unknownFields := m.unknownFields ++ [u] } := by
  obtain ⟨⟨n, w⟩, middle, htag, hfield⟩ := read_bind_eq_ok h
  by_cases hn : n = 1
  · subst hn
    rw [mergeField_one] at hfield
    obtain ⟨_, middle', hcheck, hfield⟩ := read_bind_eq_ok hfield
    obtain ⟨s, last, hstring, hlast⟩ := read_bind_eq_ok hfield
    obtain ⟨hw, rfl⟩ := read_ofExcept_eq_ok hcheck
    obtain rfl := (hR.checkWireType_eq _ _).mp hw
    rw [hR.mergeString_replaces] at hstring
    cases hlast
    exact .inl ⟨s, _, htag, hstring, rfl, rfl⟩
  · rw [mergeField_of_ne m hn] at hfield
    obtain ⟨⟨u, c'⟩, last, hunknown, hlast⟩ := read_bind_eq_ok hfield
    cases hlast
    exact .inr ⟨_, u, middle, hn, htag, hunknown, rfl⟩

/-- An unknown field is read with any message. -/
theorem mergeStep_of_unknown {m : EchoMessage U} {c c₁ : ℕ} {t : Tag} {u : U}
    {b middle rest : Bytes} (hne : t.fieldNumber ≠ 1) (htag : R.decodeTag.read b = .ok (t, middle))
    (hunknown : (R.decodeUnknownField t c).read middle = .ok ((u, c₁), rest)) :
    (mergeStep R (m, c)).read b =
      .ok (({ m with unknownFields := m.unknownFields ++ [u] }, c₁), rest) := by
  rw [mergeStep, read_bind_of_ok htag, mergeField_of_ne m hne, read_bind_of_ok hunknown, read_pure]

/-- What holds of a message while it is merged from at most `N` bytes. -/
structure Kept (R : Runtime U E) (N : ℕ) (m : EchoMessage U) : Prop where
  readable : ∀ u ∈ m.unknownFields, R.Readable u ∧ (R.tagOf u).fieldNumber ≠ 1
  size : ∀ v, m.message = some v → v.utf8ByteSize ≤ N

variable (hR : R.Lawful)

include hR

theorem kept_merge {m m' : EchoMessage U} {c c' N : ℕ} {b : Bytes} (hb : b.length ≤ N)
    (hm : m.Kept R N) (h : merge R m c b = .ok (m', c')) :
    m'.Kept R N ∧ c' + m'.totalCost R = c + m.totalCost R := by
  refine (drains hR).induction (mergeStep_consuming hR)
    (motive := fun x b x' => b.length ≤ N → x.1.Kept R N →
      x'.1.Kept R N ∧ x'.2 + x'.1.totalCost R = x.2 + x.1.totalCost R)
    (fun x _ hx => ⟨hx, rfl⟩) (fun x bs x₁ rest x' _ hreads _ ih hlength hx => ?_) h hb hm
  have hrest : rest.length ≤ N := by
    rw [List.length_append] at hlength
    omega
  rcases mergeStep_cases hR (hreads rest) with
    ⟨s, middle, htag, hstring, hm₁, hc₁⟩ | ⟨t, u, middle, hne, htag, hunknown, hm₁⟩
  · have hkept : x₁.1.Kept R N := by
      rw [hm₁]
      refine ⟨hx.readable, fun v hv => ?_⟩
      cases hv
      have hmiddle := hR.decodeTag_consuming.length_lt htag
      obtain ⟨bs', rfl, hbs'⟩ := hR.mergeString_prefixed _ _ _ _ hstring
      have hsize := hR.mergeString_size _ bs' s hbs'
      rw [List.length_append] at hmiddle
      omega
    obtain ⟨hkept', hcost⟩ := ih hrest hkept
    refine ⟨hkept', hcost.trans ?_⟩
    rw [hm₁, hc₁]
    rfl
  · obtain ⟨htagOf, hreadable, hc₁⟩ := hR.decodeUnknownField_keeps _ _ _ _ _ _ hunknown
    have hkept : x₁.1.Kept R N := by
      rw [hm₁]
      refine ⟨fun v hv => ?_, hx.size⟩
      rcases List.mem_append.mp hv with hmem | hlast
      · exact hx.readable v hmem
      · rw [List.mem_singleton.mp hlast, htagOf]
        exact ⟨hreadable, hne⟩
    obtain ⟨hkept', hcost⟩ := ih hrest hkept
    refine ⟨hkept', hcost.trans ?_⟩
    rw [hm₁]
    simp only [totalCost, List.map_append, List.map_singleton, List.sum_append,
      List.sum_singleton]
    omega

end Accepted

section Overlay

/-- A message read after another one: its text replaces the other text, its unknown
fields follow the other ones. -/
def overlay (m m' : EchoMessage U) : EchoMessage U :=
  ⟨m'.message <|> m.message, m.unknownFields ++ m'.unknownFields⟩

/-- The same for a message with what is left of the limit. -/
def overRead (m₀ : EchoMessage U) (x : EchoMessage U × ℕ) : EchoMessage U × ℕ :=
  (m₀.overlay x.1, x.2)

variable (hR : R.Lawful)

include hR

theorem mergeStep_over (m₀ : EchoMessage U) (x : EchoMessage U × ℕ) (b : Bytes) :
    (mergeStep R (m₀.overRead x)).read b =
      ((mergeStep R x).read b).map fun y => (m₀.overRead y.1, y.2) := by
  refine read_bind_map (φ := m₀.overRead) (fun t b => ?_) b
  obtain ⟨n, w⟩ := t
  by_cases hn : n = 1
  · subst hn
    rw [mergeField_one, mergeField_one, hR.mergeString_replaces (x.1.message.getD ""),
      hR.mergeString_replaces ((m₀.overRead x).1.message.getD "")]
    exact read_bind_map (φ := m₀.overRead)
      (fun _ b => read_bind_map (φ := m₀.overRead) (fun s b => rfl) b) b
  · rw [mergeField_of_ne _ hn, mergeField_of_ne _ hn]
    refine read_bind_map (φ := m₀.overRead) (fun u b => ?_) b
    simp only [overRead, overlay, read_pure, Except.map, List.append_assoc]

/-- What is read after some bytes lies over what was read from them. -/
theorem merge_over (m₀ m : EchoMessage U) (c : ℕ) (b : Bytes) :
    merge R (m₀.overlay m) c b = (merge R m c b).map m₀.overRead :=
  (drains hR).map (mergeStep_consuming hR) (drains hR) (mergeStep_over hR m₀) (m, c) b

end Overlay

section Jane

/-- A message with a field that the code does not know. -/
def jane : EchoMessage Field := ⟨some "Jane", [⟨2, .varint 300⟩]⟩

theorem wellFormed_jane : jane.WellFormed wireRuntime where
  readable u hu := by
    obtain rfl := List.mem_singleton.mp hu
    have hbody : 300 < 2 ^ 64 := by decide
    exact ⟨⟨by decide, by decide, hbody⟩, by decide⟩
  size v hv := by
    cases hv
    decide

theorem merge_jane :
    merge wireRuntime default wireRuntime.unknownFieldLimit (jane.writeTo wireRuntime) =
      .ok (jane, 999999) :=
  merge_writeTo lawful_wireRuntime wellFormed_jane 999999

theorem length_jane : (jane.writeTo wireRuntime).length = 9 := by
  have hsize : (utf8 "Jane").length = 4 := length_utf8 "Jane"
  have hvarint : (writeVarint 300).length = 2 := by
    rw [writeVarint, if_neg (by decide), writeVarint_of_lt (by decide)]
    rfl
  simp [writeTo, jane, wireRuntime, Field.write, Field.tag, Payload.wireType, Payload.write,
    length_writeTag, writeDelimited, hsize, hvarint, writeVarint_of_lt]

end Jane

section Main

variable (hR : R.Lawful)

include hR

theorem decode_of_wellFormed {m : EchoMessage U} (hm : m.WellFormed R)
    (hcost : m.totalCost R ≤ R.unknownFieldLimit) : decode R (m.writeTo R) = .ok m := by
  have hmerge := merge_writeTo hR hm (R.unknownFieldLimit - m.totalCost R)
  rw [Nat.sub_add_cancel hcost] at hmerge
  rw [decode, hmerge]
  rfl

/-- A decoded message has only unknown fields that are unknown, can be read and are within
the limit. -/
theorem wellFormed_of_decode {b : Bytes} {m : EchoMessage U} (hb : b.length < 2 ^ 31)
    (h : decode R b = .ok m) : m.WellFormed R ∧ m.totalCost R ≤ R.unknownFieldLimit := by
  obtain ⟨⟨m, c⟩, hmerge, rfl⟩ := exists_of_map_eq_ok h
  have hdefault : (default : EchoMessage U).Kept R b.length :=
    ⟨fun u hu => (List.not_mem_nil hu).elim, fun v hv => nomatch hv⟩
  obtain ⟨hkept, hcost⟩ := kept_merge hR (Nat.le_refl _) hdefault hmerge
  have hlimit : m.totalCost R ≤ R.unknownFieldLimit := by
    have hzero : (default : EchoMessage U).totalCost R = 0 := rfl
    omega
  exact ⟨⟨hkept.readable, fun v hv => (hkept.size v hv).trans_lt hb⟩, hlimit⟩

/-- The size of an optional text and of what follows it, in 32 bits. -/
theorem size_append (message : Option String) (us : Bytes) :
    (match message with
      | some v => 0 + (1 + UInt32.ofNat (R.stringEncodedLen v))
      | none => 0) + UInt32.ofNat us.length =
      UInt32.ofNat ((match message with
        | some v => R.putStringField 1 v
        | none => []) ++ us).length := by
  cases message with
  | none => exact UInt32.zero_add _
  | some v =>
      have hlength := hR.putStringField_length 1 v (by decide) (by decide)
      simp only [List.length_append, hlength, UInt32.ofNat_add, UInt32.zero_add]
      rfl

/-- In 32 bits the computed size is the number of bytes written. -/
theorem computeSize_eq (m : EchoMessage U) :
    m.computeSize R = UInt32.ofNat (m.writeTo R).length := by
  rw [computeSize, hR.encodedLen_eq]
  exact size_append hR m.message (R.writeUnknown m.unknownFields)

/-- Every message is decoded from its encoding, if its unknown fields are unknown, can be
read and are within the limit, and its text is below two gibibytes; and the computed size
is the number of bytes written, as long as 32 bits hold it. -/
theorem decode_writeTo {m : EchoMessage U} (hm : m.WellFormed R)
    (hcost : m.totalCost R ≤ R.unknownFieldLimit) :
    decode R (m.writeTo R) = .ok m ∧
      ((m.writeTo R).length < 2 ^ 32 → (m.computeSize R).toNat = (m.writeTo R).length) := by
  refine ⟨decode_of_wellFormed hR hm hcost, fun hlength => ?_⟩
  rw [computeSize_eq hR, UInt32.toNat_ofNat']
  exact Nat.mod_eq_of_lt hlength

omit hR in
theorem decode_writeTo_jane :
    decode wireRuntime (jane.writeTo wireRuntime) = .ok jane :=
  (decode_writeTo lawful_wireRuntime wellFormed_jane (by decide)).1

/-- Decoding one encoding after another merges the messages: where the first bytes are
accepted, the result is that of the remaining bytes, under what is left of the limit,
over the first message. The later text wins, and all unknown fields are kept in order. -/
theorem decode_append {a : Bytes} {m₁ : EchoMessage U} {c₁ : ℕ}
    (h : merge R default R.unknownFieldLimit a = .ok (m₁, c₁)) (b : Bytes) :
    decode R (a ++ b) = (merge R default c₁ b).map fun x =>
      ⟨x.1.message <|> m₁.message, m₁.unknownFields ++ x.1.unknownFields⟩ := by
  have happend : merge R default R.unknownFieldLimit (a ++ b) = merge R m₁ c₁ b :=
    (drains hR).append (mergeStep_consuming hR) h b
  have hover : merge R (m₁.overlay default) c₁ b = _ := merge_over hR m₁ default c₁ b
  have hdefault : m₁.overlay default = m₁ := by
    simp [overlay, default]
  rw [hdefault] at hover
  rw [decode, happend, hover]
  cases merge R default c₁ b with
  | error e => rfl
  | ok x => rfl

omit hR in
theorem decode_append_jane :
    decode wireRuntime (jane.writeTo wireRuntime ++ jane.writeTo wireRuntime) =
      (merge wireRuntime default 999999 (jane.writeTo wireRuntime)).map fun x =>
        ⟨x.1.message <|> some "Jane", ⟨2, .varint 300⟩ :: x.1.unknownFields⟩ :=
  decode_append lawful_wireRuntime merge_jane _

/-- What is accepted is well formed: a decoded message has only unknown fields that are
unknown, can be read and are within the limit, and its own encoding is decoded to the
same message. -/
theorem decode_accepts {b : Bytes} {m : EchoMessage U} (hb : b.length < 2 ^ 31)
    (h : decode R b = .ok m) :
    m.WellFormed R ∧ m.totalCost R ≤ R.unknownFieldLimit ∧ decode R (m.writeTo R) = .ok m := by
  obtain ⟨hwell, hlimit⟩ := wellFormed_of_decode hR hb h
  exact ⟨hwell, hlimit, decode_of_wellFormed hR hwell hlimit⟩

omit hR in
theorem decode_accepts_jane :
    let b := writeTag ⟨1, .lengthDelimited⟩ ++ writeDelimited (utf8 "Jane")
    ∃ m, decode wireRuntime b = .ok m ∧ m.WellFormed wireRuntime := by
  intro b
  have hlength : b.length < 2 ^ 31 := by
    have hsize : (utf8 "Jane").length = 4 := length_utf8 "Jane"
    simp only [b, List.length_append, length_writeTag (t := ⟨1, .lengthDelimited⟩) (by decide),
      writeDelimited, hsize, writeVarint_of_lt (n := 4) (by decide)]
    decide
  have hwrite : b = (default.withMessage "Jane" : EchoMessage Field).writeTo wireRuntime :=
    (List.append_nil b).symm
  have hwell : (default.withMessage "Jane" : EchoMessage Field).WellFormed wireRuntime :=
    ⟨fun u hu => (List.not_mem_nil hu).elim, wellFormed_jane.size⟩
  have hdecode : decode wireRuntime b = .ok (default.withMessage "Jane") := by
    rw [hwrite]
    exact decode_of_wellFormed lawful_wireRuntime hwell (by decide)
  exact ⟨_, hdecode, (decode_accepts lawful_wireRuntime hlength hdecode).1⟩

/-- Field 1 with another wire type is not taken for an unknown field: wherever it stands,
decoding fails. -/
theorem decode_rejects {a head : Bytes} {m₁ : EchoMessage U} {c₁ : ℕ} {w : WireType}
    (h : merge R default R.unknownFieldLimit a = .ok (m₁, c₁)) (hne : head ≠ [])
    (hhead : R.decodeTag.Reads head ⟨1, w⟩) (hw : w ≠ .lengthDelimited) (rest : Bytes) :
    ∃ e, decode R (a ++ (head ++ rest)) = .error e := by
  have happend : merge R default R.unknownFieldLimit (a ++ (head ++ rest)) =
      merge R m₁ c₁ (head ++ rest) := (drains hR).append (mergeStep_consuming hR) h _
  cases hcheck : R.checkWireType ⟨1, w⟩ .lengthDelimited with
  | ok u => exact absurd ((hR.checkWireType_eq _ _).mp hcheck) hw
  | error e =>
      have hstep : (mergeStep R (m₁, c₁)).read (head ++ rest) = .error e := by
        rw [mergeStep, read_bind_of_ok (hhead rest), mergeField_one, hcheck]
        rfl
      have hmerge : merge R m₁ c₁ (head ++ rest) = .error e :=
        (drains hR).step_error _ _ e (List.append_ne_nil_of_left_ne_nil hne _) hstep
      exact ⟨e, by rw [decode, happend, hmerge]; rfl⟩

omit hR in
/-- A message with a varint as field 1 after its text. -/
theorem decode_rejects_jane :
    ∃ e, decode wireRuntime
      (jane.writeTo wireRuntime ++ (writeTag ⟨1, .varint⟩ ++ writeVarint 7)) = .error e :=
  decode_rejects lawful_wireRuntime merge_jane (writeTag_ne_nil _)
    (reads_tag (by decide) (by decide)) (by decide) _

end Main

end EchoMessage

end Buffa

end Rust

end ConnectExamples
