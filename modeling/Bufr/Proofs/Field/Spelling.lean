import Bufr.Proofs.Bits.Cursor
import Bufr.Proofs.Field.Text

/-!
The bits that spell a value in a field. Reading finds a value in the bits it takes, writing chooses
bits for a value, and the two are put side by side here: what was written is read back up to
rounding and filling, and what was read is written again in as many bits.
-/

namespace Bufr

open Bits (number? ofNumber? Fits missing)

namespace Field

def ReadsText (code : Descriptor) (octets : Nat) (x : Bits) (value : Value) : Prop :=
  ∃ text : Octets, text.length = octets ∧ Bits.ofOctets text = x ∧ ofOctets code text = .ok value

def WritesText (octets : Nat) (value : Value) (x : Bits) : Prop :=
  match value with
  | .text content =>
    octets ≤ Bits.Writer.maxCapacity ∧
      x = Bits.ofOctets (Bits.Writer.padded octets (Octets.ofText content))
  | .missing => x = Bits.ofOctets (List.replicate octets 0xff)
  | _ => False

def Reads (field : Field) (x : Bits) (value : Value) : Prop :=
  if field.isText then ReadsText field.code field.octetCount x value
  else
    field.width ≤ 64 ∧ x.length = field.width ∧ field.ofRaw? (number? x) = .ok value

def Writes (field : Field) (value : Value) (x : Bits) : Prop :=
  if field.isText then WritesText field.octetCount value x
  else
    field.width ≤ 64 ∧ ∃ raw?, field.toRaw value = .ok raw? ∧ Fits field.width raw? ∧
      x = ofNumber? field.width raw?

theorem readText_ok_iff {code : Descriptor} {octets : Nat} {value : Value} {r r' : Bits.Reader} :
    readText code octets r = .ok (value, r') ↔ ∃ x, ReadsText code octets x value ∧ r.Takes x r' := by
  simp only [readText, bind_eq_ok, Prod.exists, Bits.Reader.text_ok_iff, pure_eq_ok, Prod.mk.injEq]
  constructor
  · rintro ⟨text, r₁, ⟨long, taken⟩, value', read, rfl, rfl⟩
    exact ⟨_, ⟨text, long, rfl, read⟩, taken⟩
  · rintro ⟨_, ⟨text, long, rfl, read⟩, taken⟩
    exact ⟨text, r', ⟨long, taken⟩, value, read, rfl, rfl⟩

theorem read_ok_iff {field : Field} {value : Value} {r r' : Bits.Reader} :
    field.read r = .ok (value, r') ↔ ∃ x, field.Reads x value ∧ r.Takes x r' := by
  unfold read Reads
  split
  case isTrue => rw [readText_ok_iff]
  case isFalse =>
    simp only [bind_eq_ok, Prod.exists, Bits.Reader.number_ok_iff, pure_eq_ok, Prod.mk.injEq]
    constructor
    · rintro ⟨_, _, ⟨narrow, x, long, rfl, taken⟩, _, read, rfl, rfl⟩
      exact ⟨x, ⟨narrow, long, read⟩, taken⟩
    · rintro ⟨x, ⟨narrow, long, read⟩, taken⟩
      exact ⟨_, r', ⟨narrow, x, long, rfl, taken⟩, value, read, rfl, rfl⟩

theorem writeText_ok_iff {octets : Nat} {value : Value} {refusal : Error} {w w' : Bits.Writer} :
    writeText octets value refusal w = .ok w' ↔ ∃ x, WritesText octets value x ∧ w' = w.push x := by
  cases value with
  | text content => simp [writeText, WritesText, Bits.Writer.text_ok_iff]
  | missing => simp [writeText, WritesText, Bits.Writer.missingText_eq, eq_comm]
  | integer => simp [writeText, WritesText]
  | decimal => simp [writeText, WritesText]

theorem write_ok_iff {field : Field} {value : Value} {w w' : Bits.Writer} :
    field.write value w = .ok w' ↔ ∃ x, field.Writes value x ∧ w' = w.push x := by
  unfold write Writes
  split
  case isTrue => rw [writeText_ok_iff]
  case isFalse =>
    simp only [bind_eq_ok, Bits.Writer.number?_ok_iff]
    constructor
    · rintro ⟨raw?, raw, narrow, fits, rfl⟩
      exact ⟨_, ⟨narrow, raw?, raw, fits, rfl⟩, rfl⟩
    · rintro ⟨_, ⟨narrow, raw?, raw, fits, rfl⟩, rfl⟩
      exact ⟨raw?, raw, narrow, fits, rfl⟩

end Field

end Bufr
