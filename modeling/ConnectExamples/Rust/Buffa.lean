import ConnectExamples.Wire.Format

/-!
# What the generated messages see of the `buffa` crate

The generated code calls a `Runtime` and relies on `Lawful`: strings and unknown fields
are written as a tag and a body that are read back from the front of the bytes, merging a
string replaces it, and `merge` calls the generated code until no byte is left. The wire
format is such a runtime: there an unknown field is a number with a payload, and takes
one from the limit.
-/

namespace ConnectExamples

namespace Rust

namespace Buffa

open Wire Reader

/-- What the generated code uses of the crate `buffa`. `U` is an unknown field and `E` a
`DecodeError`; a decoding has a limit to the unknown fields that it may still store, of
which a field takes `cost`. -/
structure Runtime (U E : Type) where
  stringEncodedLen : String → ℕ
  putStringField : ℕ → String → Bytes
  decodeTag : Reader E Tag
  checkWireType : Tag → WireType → Except E Unit
  mergeString : String → Reader E String
  decodeUnknownField : Tag → ℕ → Reader E (U × ℕ)
  encodedLen : List U → ℕ
  writeUnknown : List U → Bytes
  /-- The loop of `Message::merge` around a function that reads one field. -/
  merge : {M : Type} → (M → Reader E M) → M → Bytes → Except E M
  unknownFieldLimit : ℕ
  tagOf : U → Tag
  cost : U → ℕ
  /-- The field can be read back: its number is one, and it is not nested too deeply. -/
  Readable : U → Prop

variable {U E : Type}

/-- What the generated code relies on. -/
structure Runtime.Lawful (R : Runtime U E) : Prop where
  decodeTag_consuming : R.decodeTag.Consuming
  checkWireType_eq : ∀ t w, R.checkWireType t w = .ok () ↔ t.wireType = w
  mergeString_prefixed : ∀ s, (R.mergeString s).Prefixed
  mergeString_replaces : ∀ s, R.mergeString s = R.mergeString ""
  mergeString_size : ∀ s bs v, (R.mergeString s).Reads bs v → v.utf8ByteSize ≤ bs.length
  putStringField_reads : ∀ n s, 0 < n → n < 2 ^ 29 → s.utf8ByteSize < 2 ^ 31 →
    ∃ head body, R.putStringField n s = head ++ body ∧ head ≠ [] ∧
      R.decodeTag.Reads head ⟨n, .lengthDelimited⟩ ∧ (R.mergeString "").Reads body s
  putStringField_length : ∀ n s, 0 < n → n < 16 →
    (R.putStringField n s).length = 1 + R.stringEncodedLen s
  decodeUnknownField_prefixed : ∀ t c, (R.decodeUnknownField t c).Prefixed
  decodeUnknownField_keeps : ∀ t c b u c' rest,
    (R.decodeUnknownField t c).read b = .ok ((u, c'), rest) →
      R.tagOf u = t ∧ R.Readable u ∧ c' + R.cost u = c
  writeUnknown_append : ∀ us vs, R.writeUnknown (us ++ vs) = R.writeUnknown us ++ R.writeUnknown vs
  writeUnknown_reads : ∀ u c, R.Readable u →
    ∃ head body, R.writeUnknown [u] = head ++ body ∧ head ≠ [] ∧
      R.decodeTag.Reads head (R.tagOf u) ∧
      (R.decodeUnknownField (R.tagOf u) (c + R.cost u)).Reads body (u, c)
  encodedLen_eq : ∀ us, R.encodedLen us = (R.writeUnknown us).length
  merge_drains : ∀ {M : Type} (step : M → Reader E M), (∀ m, (step m).Consuming) →
    Drains step (R.merge step)

/-- A field that is kept as it was read. -/
structure Field where
  number : ℕ
  body : Payload
  deriving DecidableEq, Repr

namespace Field

def tag (u : Field) : Tag := ⟨u.number, u.body.wireType⟩

def write (u : Field) : Bytes := writeTag u.tag ++ u.body.write

structure Readable (u : Field) : Prop where
  pos : 0 < u.number
  lt : u.number < 2 ^ 29
  body : u.body.WellFormed

/-- A field within the limit `c`. -/
def decode (t : Tag) (c : ℕ) : Reader Fault (Field × ℕ) := do
  let p ← payload t.wireType
  if 0 < t.fieldNumber ∧ t.fieldNumber < 2 ^ 29 ∧ 0 < c then
    return (⟨t.fieldNumber, p⟩, c - 1)
  else fail .limit

theorem prefixed_decode (t : Tag) (c : ℕ) : (decode t c).Prefixed := by
  refine (prefixed_payload _).bind fun p => ?_
  split
  · exact Prefixed.pure _
  · exact Prefixed.fail _

theorem reads_decode {u : Field} (h : u.Readable) (c : ℕ) :
    (decode u.tag (c + 1)).Reads u.body.write (u, c) := by
  have hcheck : 0 < u.number ∧ u.number < 2 ^ 29 ∧ 0 < c + 1 := ⟨h.pos, h.lt, c.succ_pos⟩
  intro rest
  refine (read_bind_of_ok (reads_payload h.body rest)).trans ?_
  rw [tag, if_pos hcheck]
  rfl

theorem decode_eq_ok {t : Tag} {c c' : ℕ} {b rest : Bytes} {u : Field}
    (h : (decode t c).read b = .ok ((u, c'), rest)) : u.tag = t ∧ u.Readable ∧ c' + 1 = c := by
  obtain ⟨p, middle, hp, hlast⟩ := read_bind_eq_ok h
  obtain ⟨hwell, htype⟩ := payload_eq_ok hp
  split at hlast
  · rename_i hcheck
    cases hlast
    refine ⟨?_, ⟨hcheck.1, hcheck.2.1, hwell⟩, Nat.sub_add_cancel hcheck.2.2⟩
    rw [tag, htype]
  · cases hlast

end Field

/-- The runtime of the wire format, with the limit that the crate has to unknown fields.
Groups are left out: the crate keeps a group as an unknown field, and here reading one
fails. -/
def wireRuntime : Runtime Field Fault where
  stringEncodedLen s := (writeDelimited (utf8 s)).length
  putStringField n s := writeTag ⟨n, .lengthDelimited⟩ ++ writeDelimited (utf8 s)
  decodeTag := tag
  checkWireType t w := if t.wireType = w then .ok () else .error .wireType
  mergeString _ := string
  decodeUnknownField := Field.decode
  encodedLen us := (us.flatMap Field.write).length
  writeUnknown us := us.flatMap Field.write
  merge := drain
  unknownFieldLimit := 1000000
  tagOf := Field.tag
  cost _ := 1
  Readable := Field.Readable

theorem lawful_wireRuntime : wireRuntime.Lawful where
  decodeTag_consuming := consuming_tag
  checkWireType_eq t w := by
    simp only [wireRuntime]
    split <;> simp_all
  mergeString_prefixed _ := consuming_string.prefixed
  mergeString_replaces _ := rfl
  mergeString_size s bs v h := by
    have hread := h []
    rw [List.append_nil] at hread
    exact string_size hread
  putStringField_reads n s hpos hlt hs :=
    ⟨_, _, rfl, writeTag_ne_nil _, reads_tag hpos hlt, reads_string (hs.trans (by norm_num))⟩
  putStringField_length n s hpos hlt := by
    simp only [wireRuntime, List.length_append]
    rw [length_writeTag hlt]
  decodeUnknownField_prefixed := Field.prefixed_decode
  decodeUnknownField_keeps _ _ _ _ _ _ := Field.decode_eq_ok
  writeUnknown_append us vs := List.flatMap_append
  writeUnknown_reads u c h := ⟨writeTag u.tag, u.body.write, List.flatMap_singleton ..,
    writeTag_ne_nil _, reads_tag h.pos h.lt, Field.reads_decode h c⟩
  encodedLen_eq _ := rfl
  merge_drains step hstep := drains_drain hstep

end Buffa

end Rust

end ConnectExamples
