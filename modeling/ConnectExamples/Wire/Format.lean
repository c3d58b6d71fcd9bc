import ConnectExamples.Wire.Reader
import Mathlib.Tactic.NormNum

/-!
# The wire format of Protocol Buffers

Varints, tags, strings and the payloads of the wire types but the two of groups, each
with a reader and a writer. A reader reads back what the writer wrote (`reads_varint`,
`reads_tag`, `reads_string`, `reads_payload`) and nothing but a prefix of its input.
-/

namespace Wire

open Reader

inductive Fault where
  | truncated
  | overflow
  | invalidTag
  | wireType
  | utf8
  | limit
  deriving DecidableEq, Repr

section Basic

def byte : Reader Fault UInt8 where
  read
    | [] => .error .truncated
    | b :: rest => .ok (b, rest)

def take (n : ℕ) : Reader Fault Bytes where
  read b := if n ≤ b.length then .ok (b.take n, b.drop n) else .error .truncated

theorem reads_byte (b : UInt8) : byte.Reads [b] b := fun _ => rfl

theorem consuming_byte : byte.Consuming := by
  intro b a rest h
  cases b with
  | nil => cases h
  | cons x tail =>
      cases h
      exact ⟨[a], rfl, by simp, reads_byte a⟩

theorem reads_take (bs : Bytes) : (take bs.length).Reads bs bs := by
  intro rest
  simp [take]

theorem take_eq_ok {n : ℕ} {b x rest : Bytes} (h : (take n).read b = .ok (x, rest)) :
    x.length = n ∧ b = x ++ rest := by
  simp only [take] at h
  split at h
  · rename_i hn
    cases h
    exact ⟨List.length_take_of_le hn, (List.take_append_drop n b).symm⟩
  · cases h

theorem prefixed_take (n : ℕ) : (take n).Prefixed := by
  intro b x rest h
  obtain ⟨rfl, rfl⟩ := take_eq_ok h
  exact ⟨x, rfl, reads_take x⟩

end Basic

section Varint

/-- A number in groups of seven bits, the lowest first; all bytes but the last one have
their highest bit set. -/
def writeVarint (n : ℕ) : Bytes :=
  if n < 128 then [UInt8.ofNat n] else UInt8.ofNat (n % 128 + 128) :: writeVarint (n / 128)

theorem writeVarint_of_lt {n : ℕ} (h : n < 128) : writeVarint n = [UInt8.ofNat n] := by
  rw [writeVarint, if_pos h]

/-- A number of at most `k` groups. -/
def varint : ℕ → Reader Fault ℕ
  | 0 => fail .overflow
  | k + 1 => do
      let b ← byte
      if b.toNat < 128 then return b.toNat
      else
        let n ← varint k
        return b.toNat - 128 + 128 * n

theorem reads_varint (k n : ℕ) (h : n < 128 ^ (k + 1)) :
    (varint (k + 1)).Reads (writeVarint n) n := by
  induction k generalizing n with
  | zero =>
      have hn : n < 128 := by simpa using h
      rw [writeVarint_of_lt hn]
      have hbyte : (UInt8.ofNat n).toNat = n := by
        rw [UInt8.toNat_ofNat']
        omega
      intro rest
      rw [varint, read_bind_of_ok (reads_byte _ rest), hbyte, if_pos hn, read_pure]
  | succ k ih =>
      rw [writeVarint]
      intro rest
      by_cases hn : n < 128
      · have hbyte : (UInt8.ofNat n).toNat = n := by
          rw [UInt8.toNat_ofNat']
          omega
        rw [if_pos hn, varint, read_bind_of_ok (reads_byte _ rest), hbyte, if_pos hn, read_pure]
      · have hbyte : (UInt8.ofNat (n % 128 + 128)).toNat = n % 128 + 128 := by
          rw [UInt8.toNat_ofNat']
          omega
        have hlarge : ¬ n % 128 + 128 < 128 := by omega
        have hdiv : n / 128 < 128 ^ (k + 1) := by
          rw [pow_succ] at h
          exact Nat.div_lt_of_lt_mul (by rwa [Nat.mul_comm])
        have hvalue : n % 128 + 128 - 128 + 128 * (n / 128) = n := by omega
        have hfirst := reads_byte (UInt8.ofNat (n % 128 + 128)) (writeVarint (n / 128) ++ rest)
        rw [if_neg hn, varint]
        refine (read_bind_of_ok hfirst).trans ?_
        rw [hbyte, if_neg hlarge, read_bind_of_ok (ih (n / 128) hdiv rest), hvalue, read_pure]

theorem consuming_varint (k : ℕ) : (varint (k + 1)).Consuming := by
  have hprefixed (k : ℕ) : (varint k).Prefixed := by
    induction k with
    | zero => exact Prefixed.fail _
    | succ k ih =>
        refine consuming_byte.prefixed.bind fun b => ?_
        split
        · exact Prefixed.pure _
        · exact ih.bind fun n => Prefixed.pure _
  refine consuming_byte.bind fun b => ?_
  split
  · exact Prefixed.pure _
  · exact (hprefixed k).bind fun n => Prefixed.pure _

theorem writeVarint_ne_nil (n : ℕ) : writeVarint n ≠ [] := by
  rw [writeVarint]
  split <;> simp

/-- A varint of 64 bits. -/
def uint64 : Reader Fault ℕ := do
  let n ← varint 10
  if n < 2 ^ 64 then return n else fail .overflow

theorem reads_uint64 {n : ℕ} (h : n < 2 ^ 64) : uint64.Reads (writeVarint n) n := by
  have hn : n < 128 ^ (9 + 1) := h.trans (by norm_num)
  intro rest
  rw [uint64, read_bind_of_ok (reads_varint 9 n hn rest), if_pos h, read_pure]

theorem consuming_uint64 : uint64.Consuming := by
  refine (consuming_varint 9).bind fun n => ?_
  split
  · exact Prefixed.pure n
  · exact Prefixed.fail _

theorem uint64_lt {b rest : Bytes} {n : ℕ} (h : uint64.read b = .ok (n, rest)) : n < 2 ^ 64 := by
  obtain ⟨m, middle, -, hcheck⟩ := read_bind_eq_ok h
  split at hcheck
  · cases hcheck
    assumption
  · cases hcheck

end Varint

section Tag

inductive WireType where
  | varint
  | fixed64
  | lengthDelimited
  | startGroup
  | endGroup
  | fixed32
  deriving DecidableEq, Repr

namespace WireType

def number : WireType → ℕ
  | varint => 0
  | fixed64 => 1
  | lengthDelimited => 2
  | startGroup => 3
  | endGroup => 4
  | fixed32 => 5

def ofNumber? : ℕ → Option WireType
  | 0 => some varint
  | 1 => some fixed64
  | 2 => some lengthDelimited
  | 3 => some startGroup
  | 4 => some endGroup
  | 5 => some fixed32
  | _ => none

theorem ofNumber?_number (w : WireType) : ofNumber? w.number = some w := by
  cases w <;> rfl

theorem number_lt (w : WireType) : w.number < 8 := by
  cases w <;> decide

end WireType

structure Tag where
  fieldNumber : ℕ
  wireType : WireType
  deriving DecidableEq, Repr

def writeTag (t : Tag) : Bytes := writeVarint (8 * t.fieldNumber + t.wireType.number)

def tag : Reader Fault Tag := do
  let n ← uint64
  match WireType.ofNumber? (n % 8) with
  | some w => if n < 2 ^ 32 ∧ n / 8 ≠ 0 then return ⟨n / 8, w⟩ else fail .invalidTag
  | none => fail .invalidTag

theorem reads_tag {t : Tag} (hpos : 0 < t.fieldNumber) (hlt : t.fieldNumber < 2 ^ 29) :
    tag.Reads (writeTag t) t := by
  have hw := t.wireType.number_lt
  have hmod : (8 * t.fieldNumber + t.wireType.number) % 8 = t.wireType.number := by omega
  have hdiv : (8 * t.fieldNumber + t.wireType.number) / 8 = t.fieldNumber := by omega
  have hcheck : 8 * t.fieldNumber + t.wireType.number < 2 ^ 32 ∧ t.fieldNumber ≠ 0 := by omega
  intro rest
  rw [tag, writeTag, read_bind_of_ok (reads_uint64 (by omega) rest), hmod,
    WireType.ofNumber?_number]
  simp only [hdiv, if_pos hcheck, read_pure]

/-- The tags of the first fifteen fields take one byte. -/
theorem length_writeTag {t : Tag} (h : t.fieldNumber < 16) : (writeTag t).length = 1 := by
  have hw := t.wireType.number_lt
  rw [writeTag, writeVarint_of_lt (by omega)]
  rfl

theorem consuming_tag : tag.Consuming := by
  refine consuming_uint64.bind fun n => ?_
  split
  · split
    · exact Prefixed.pure _
    · exact Prefixed.fail _
  · exact Prefixed.fail _

theorem writeTag_ne_nil (t : Tag) : writeTag t ≠ [] := writeVarint_ne_nil _

end Tag

section String

def utf8 (s : String) : Bytes := s.toByteArray.data.toList

def ofUtf8? (b : Bytes) : Option String := String.fromUTF8? ⟨b.toArray⟩

theorem ofUtf8?_utf8 (s : String) : ofUtf8? (utf8 s) = some s := by
  have hbytes : (⟨(utf8 s).toArray⟩ : ByteArray) = s.toByteArray := by
    simp [utf8]
  rw [ofUtf8?, hbytes, String.fromUTF8?, dif_pos s.isValidUTF8]
  rfl

theorem utf8_of_ofUtf8? {b : Bytes} {s : String} (h : ofUtf8? b = some s) : utf8 s = b := by
  unfold ofUtf8? String.fromUTF8? at h
  split at h
  · cases h
    rfl
  · cases h

theorem length_utf8 (s : String) : (utf8 s).length = s.utf8ByteSize := by
  simp [utf8, ← String.size_toByteArray]

/-- Bytes with their number before them. -/
def writeDelimited (b : Bytes) : Bytes := writeVarint b.length ++ b

def delimited : Reader Fault Bytes := do
  let n ← uint64
  take n

theorem reads_delimited {b : Bytes} (h : b.length < 2 ^ 64) :
    delimited.Reads (writeDelimited b) b :=
  (reads_uint64 h).bind (reads_take b)

theorem consuming_delimited : delimited.Consuming :=
  consuming_uint64.bind fun n => prefixed_take n

def string : Reader Fault String := do
  let b ← delimited
  match ofUtf8? b with
  | some s => return s
  | none => fail .utf8

theorem reads_string {s : String} (h : s.utf8ByteSize < 2 ^ 64) :
    string.Reads (writeDelimited (utf8 s)) s := by
  intro rest
  have hread := reads_delimited ((length_utf8 s).trans_lt h) rest
  rw [string, read_bind_of_ok hread, ofUtf8?_utf8]
  rfl

theorem delimited_eq_ok {b x rest : Bytes} (h : delimited.read b = .ok (x, rest)) :
    x.length < 2 ^ 64 ∧ x.length ≤ b.length := by
  obtain ⟨n, middle, hn, htake⟩ := read_bind_eq_ok h
  have hlt := consuming_uint64.length_lt hn
  obtain ⟨rfl, rfl⟩ := take_eq_ok htake
  rw [List.length_append] at hlt
  exact ⟨uint64_lt hn, by omega⟩

/-- A string is no longer than the bytes that it is read from. -/
theorem string_size {b rest : Bytes} {s : String} (h : string.read b = .ok (s, rest)) :
    s.utf8ByteSize ≤ b.length := by
  obtain ⟨x, middle, hx, hs⟩ := read_bind_eq_ok h
  split at hs
  · rename_i s' hutf8
    cases hs
    rw [← length_utf8, utf8_of_ofUtf8? hutf8]
    exact (delimited_eq_ok hx).2
  · cases hs

theorem consuming_string : string.Consuming := by
  refine consuming_delimited.bind fun b => ?_
  split
  · exact Prefixed.pure _
  · exact Prefixed.fail _

end String

section Payload

/-- What follows a tag; groups are not among it. -/
inductive Payload where
  | varint (n : ℕ)
  | fixed64 (b : Bytes)
  | bytes (b : Bytes)
  | fixed32 (b : Bytes)
  deriving DecidableEq, Repr

namespace Payload

def wireType : Payload → WireType
  | varint _ => .varint
  | fixed64 _ => .fixed64
  | bytes _ => .lengthDelimited
  | fixed32 _ => .fixed32

/-- A payload that fits its wire type. -/
def WellFormed : Payload → Prop
  | varint n => n < 2 ^ 64
  | fixed64 b => b.length = 8
  | bytes b => b.length < 2 ^ 64
  | fixed32 b => b.length = 4

def write : Payload → Bytes
  | varint n => writeVarint n
  | fixed64 b => b
  | bytes b => writeDelimited b
  | fixed32 b => b

end Payload

def payload : WireType → Reader Fault Payload
  | .varint => do return .varint (← uint64)
  | .fixed64 => do return .fixed64 (← take 8)
  | .lengthDelimited => do return .bytes (← delimited)
  | .fixed32 => do return .fixed32 (← take 4)
  | _ => fail .wireType

theorem reads_payload {p : Payload} (h : p.WellFormed) :
    (payload p.wireType).Reads p.write p := by
  have hlast {α : Type} {r : Reader Fault α} {bs : Bytes} {a : α} (f : α → Payload)
      (hr : r.Reads bs a) : (do return f (← r) : Reader Fault Payload).Reads bs (f a) := by
    intro rest
    rw [read_bind_of_ok (hr rest), read_pure]
  cases p with
  | varint n => exact hlast Payload.varint (reads_uint64 h)
  | fixed64 b =>
      have hread := reads_take b
      rw [show b.length = 8 from h] at hread
      exact hlast Payload.fixed64 hread
  | bytes b => exact hlast Payload.bytes (reads_delimited h)
  | fixed32 b =>
      have hread := reads_take b
      rw [show b.length = 4 from h] at hread
      exact hlast Payload.fixed32 hread

/-- A payload that was read fits the wire type that was asked for. -/
theorem payload_eq_ok {w : WireType} {b rest : Bytes} {p : Payload}
    (h : (payload w).read b = .ok (p, rest)) : p.WellFormed ∧ p.wireType = w := by
  cases w with
  | varint =>
      obtain ⟨n, middle, hn, hp⟩ := read_bind_eq_ok h
      cases hp
      exact ⟨uint64_lt hn, rfl⟩
  | fixed64 =>
      obtain ⟨x, middle, hx, hp⟩ := read_bind_eq_ok h
      cases hp
      exact ⟨(take_eq_ok hx).1, rfl⟩
  | lengthDelimited =>
      obtain ⟨x, middle, hx, hp⟩ := read_bind_eq_ok h
      cases hp
      exact ⟨(delimited_eq_ok hx).1, rfl⟩
  | fixed32 =>
      obtain ⟨x, middle, hx, hp⟩ := read_bind_eq_ok h
      cases hp
      exact ⟨(take_eq_ok hx).1, rfl⟩
  | startGroup => cases h
  | endGroup => cases h

theorem prefixed_payload (w : WireType) : (payload w).Prefixed := by
  cases w with
  | varint => exact consuming_uint64.prefixed.bind fun _ => Prefixed.pure _
  | fixed64 => exact (prefixed_take 8).bind fun _ => Prefixed.pure _
  | lengthDelimited => exact consuming_delimited.prefixed.bind fun _ => Prefixed.pure _
  | fixed32 => exact (prefixed_take 4).bind fun _ => Prefixed.pure _
  | startGroup => exact Prefixed.fail _
  | endGroup => exact Prefixed.fail _

end Payload

end Wire
