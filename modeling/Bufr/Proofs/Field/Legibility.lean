import Bufr.Proofs.Field.RoundTrip

/-!
Texts of any characters in fields of so many octets. A text that is cut between two characters is read
back as what stands in front of the cut; one that is cut within a character is not read at all.
-/

namespace Bufr

namespace Octets

theorem ofText_inj {text text' : String} : ofText text = ofText text' ↔ text = text' := by
  constructor
  · intro same
    exact Option.some.inj ((fromUTF8?_eq_some_iff.2 rfl).symm.trans (fromUTF8?_eq_some_iff.2 same))
  · rintro rfl
    rfl

theorem ofText_concat (front back : String) :
    ofText (front ++ back) = ofText front ++ ofText back := by
  simp [ofText]

theorem exists_append_of_octets {content text : String} {octets : Octets}
    (begins : ofText content = ofText text ++ octets) : ∃ back, content = text ++ back := by
  have taken : content.toByteArray.extract 0 (ofText text).length = text.toByteArray := by
    apply ByteArray.ext
    apply Array.toList_inj.1
    rw [ByteArray.data_extract, Array.toList_extract]
    show (ofText content).extract 0 _ = ofText text
    simp [begins]
  have inside : (ofText text).length ≤ (ofText content).length := by
    rw [begins, List.length_append]
    exact Nat.le_add_right _ _
  have valid : String.Pos.Raw.IsValid content ⟨(ofText text).length⟩ := by
    refine String.Pos.Raw.isValid_iff_isValidUTF8_extract_zero.2 ⟨inside, ?_⟩
    rw [taken]
    exact text.isValidUTF8
  obtain ⟨front, back, rfl, size⟩ := String.Pos.Raw.isValid_iff_exists_append.1 valid
  have long : (ofText text).length = (ofText front).length := congrArg String.Pos.Raw.byteIdx size
  rw [ofText_concat] at begins
  have same := (List.append_inj begins long.symm).1
  exact ⟨back, by rw [ofText_inj.1 same]⟩

end Octets

namespace Field

open Octets (ofText)

/-- What so many octets have room for of a text, when they end between two of its characters. -/
inductive CutsTo (octets : Nat) : (content front : String) → Prop where
  | whole {content} (short : (ofText content).length ≤ octets) : CutsTo octets content content
  | front {front back} (full : (ofText front).length = octets) :
      CutsTo octets (front ++ back) front

def IsLegible (octets : Nat) (content : String) : Prop := ∃ front, CutsTo octets content front

inductive Refuses (field : Field) : Value → Error → Prop where
  | cut {content} (isText : field.isText) (within : ¬IsLegible field.octetCount content) :
      Refuses field (.text content) (.invalidText field.code)
  | scale {value} (isNumber : field.isText = false) (unplaced : ¬field.HasPlaces)
      (present : value = .missing → field.width = 0) :
      Refuses field value (.scaleOutOfRange field.code field.scale)

inductive Returns (field : Field) : Value → Value → Prop where
  | text {content front} (isText : field.isText) (cut : CutsTo field.octetCount content front) :
      Returns field (.text content) (.text (withoutFilling front))
  | other {value value'} (noText : ∀ content, value ≠ .text content)
      (back : field.bits = 0 ∨ value.ReadsBack field.octetCount value') : Returns field value value'

variable {octets : Nat} {content front : String} {code : Descriptor} {field : Field} {x : Bits}
  {r r' : Bits.Reader}

theorem ofOctets_of_cutsTo (code : Descriptor) (cut : CutsTo octets content front) :
    ofOctets code (Bits.Writer.padded octets (ofText content)) =
      .ok (.text (withoutFilling front)) := by
  cases cut with
  | whole short =>
      rw [Bits.Writer.padded, List.take_of_length_le short, ← Octets.ofText_spaces]
      nth_rewrite 1 [← String.ofList_toList (s := content)]
      rw [← Octets.ofText_append, ofOctets_ofText, withoutFilling_of_fills]
  | front full =>
      rw [Octets.ofText_concat, Bits.Writer.padded, List.take_left' full, full, Nat.sub_self,
        List.replicate_zero, List.append_nil, ofOctets_ofText]

theorem ofOctets_of_illegible (code : Descriptor) (illegible : ¬IsLegible octets content) :
    ofOctets code (Bits.Writer.padded octets (ofText content)) = .error (.invalidText code) := by
  have long : octets < (ofText content).length :=
    Nat.lt_of_not_le fun short => illegible ⟨content, .whole short⟩
  have full : ((ofText content).take octets).length = octets :=
    List.length_take_of_le (Nat.le_of_lt long)
  rw [Bits.Writer.padded, full, Nat.sub_self, List.replicate_zero, List.append_nil]
  cases found : ofOctets code ((ofText content).take octets) with
  | ok value =>
      rcases ofOctets_eq_ok found with ⟨all, positive, -⟩ | ⟨text, same, -⟩
      · -- No octet of a text has all bits set.
        obtain ⟨octet, mem⟩ := List.exists_mem_of_length_pos positive
        have set : octet = 0xff := List.eq_of_mem_replicate (all ▸ mem)
        exact absurd set (Octets.octet_ne_of_mem_ofText (List.mem_of_mem_take mem))
      · have begins := List.take_append_drop octets (ofText content)
        rw [same] at begins
        obtain ⟨back, rfl⟩ := Octets.exists_append_of_octets begins.symm
        exact absurd ⟨text, .front (same ▸ full)⟩ illegible
  | error e =>
      unfold ofOctets at found
      split at found
      · cases found
      split at found
      · cases found
      · cases found
        rfl

/-! ## What is read of a field that was written -/

theorem reads_of_cutsTo (isText : field.isText) (written : field.Writes (.text content) x)
    (cut : CutsTo field.octetCount content front) :
    field.Reads x (.text (withoutFilling front)) := by
  rw [Writes, if_pos isText] at written
  obtain ⟨-, rfl⟩ := written
  rw [Reads, if_pos isText]
  exact ⟨_, Bits.Writer.length_padded _ _, rfl, ofOctets_of_cutsTo field.code cut⟩

theorem read_of_illegible (isText : field.isText) (written : field.Writes (.text content) x)
    (within : ¬IsLegible field.octetCount content) (taken : r.Takes x r') :
    field.read r = .error (.invalidText field.code) := by
  rw [Writes, if_pos isText] at written
  obtain ⟨-, rfl⟩ := written
  rw [read, if_pos isText]
  have octets := Bits.Reader.text_ok_iff.2 ⟨Bits.Writer.length_padded _ _, taken⟩
  exact bind_eq_error_iff.2 (.inr ⟨_, octets,
    bind_eq_error_iff.2 (.inl (ofOctets_of_illegible field.code within))⟩)

theorem ofRaw_unplaced {raw : Nat} {m : Int64} (unplaced : ¬field.HasPlaces)
    (sum : m.toInt = (Int64.ofNat raw).toInt + field.reference) :
    field.ofRaw raw = .error (.scaleOutOfRange field.code field.scale) := by
  unfold HasPlaces at unplaced
  unfold ofRaw
  rw [Decimal.word?_eq_some_iff.2 sum]
  simp only
  rw [if_neg (by omega), if_neg (by omega)]

theorem read_of_unplaced {value : Value} (isNumber : field.isText = false)
    (unplaced : ¬field.HasPlaces) (present : value = .missing → field.width = 0)
    (written : field.Writes value x) (word : ∃ w : Int64, w.toInt = field.reference)
    (taken : r.Takes x r') :
    field.read r = .error (.scaleOutOfRange field.code field.scale) := by
  simp only [Writes, isNumber, Bool.false_eq_true, ↓reduceIte] at written
  obtain ⟨narrow, raw?, raw, fits, rfl⟩ := written
  have refused : field.ofRaw? (Bits.number? (Bits.ofNumber? field.width raw?)) =
      .error (.scaleOutOfRange field.code field.scale) := by
    rcases Nat.eq_zero_or_pos field.width with zero | positive
    · obtain ⟨w, reference⟩ := word
      have empty : Bits.number? (Bits.ofNumber? field.width raw?) = some 0 := by
        rw [zero]
        rfl
      rw [empty]
      exact ofRaw_unplaced unplaced (show w.toInt = _ by simpa using reference)
    · rw [Bits.number?_ofNumber? narrow positive fits]
      rcases toRaw_eq_ok_iff.1 raw with ⟨missing, -⟩ | ⟨m, n, rfl, -, small, sum⟩
      · have := present missing
        omega
      · have sum' : m.toInt = (Int64.ofNat n).toInt + field.reference := by
          rw [Int64.toInt_ofNat_of_lt small, sum]
        exact ofRaw_unplaced unplaced sum'
  simp only [read, isNumber, Bool.false_eq_true, ↓reduceIte]
  have number := Bits.Reader.number_ok_iff.2
    ⟨narrow, _, Bits.length_ofNumber? field.width raw?, rfl, taken⟩
  exact bind_eq_error_iff.2 (.inr ⟨_, number, bind_eq_error_iff.2 (.inl refused)⟩)

theorem read_of_refuses {value : Value} {e : Error} (refuses : field.Refuses value e)
    (written : field.Writes value x) (word : ∃ w : Int64, w.toInt = field.reference)
    (taken : r.Takes x r') : field.read r = .error e := by
  cases refuses with
  | cut isText within => exact read_of_illegible isText written within taken
  | scale isNumber unplaced present =>
      exact read_of_unplaced isNumber unplaced present written word taken

theorem exists_reads {value : Value} (accepted : ∀ e, ¬field.Refuses value e)
    (written : field.Writes value x) (word : ∃ w : Int64, w.toInt = field.reference) :
    ∃ value', field.Reads x value' ∧ field.Returns value value' := by
  have reads_other (noText : ∀ content, value ≠ .text content)
      (places : field.isText ∨ field.HasPlaces ∨ value = .missing ∧ 0 < field.width) :
      ∃ value', field.Reads x value' ∧ field.Returns value value' := by
    have ascii : value.isAscii := by
      cases value with
      | text content => exact absurd rfl (noText content)
      | missing | integer | decimal => rfl
    obtain ⟨value', read, back⟩ := reads_of_writes written ascii places word
    exact ⟨value', read, .other noText back⟩
  cases isText : field.isText with
  | true =>
      cases value with
      | text content =>
          obtain ⟨front, cut⟩ := Classical.not_not.1 fun within => accepted _ (.cut isText within)
          exact ⟨_, reads_of_cutsTo isText written cut, .text isText cut⟩
      | missing | integer | decimal => exact reads_other nofun (.inl isText)
  | false =>
      refine reads_other ?_ (.inr ?_)
      · rintro content rfl
        simp only [Writes, isText, Bool.false_eq_true, ↓reduceIte] at written
        obtain ⟨-, raw?, raw, -⟩ := written
        cases raw
      · by_cases places : field.HasPlaces
        · exact .inl places
        · refine .inr (Classical.not_not.1 fun lost => accepted _ (.scale isText places ?_))
          exact fun missing => Nat.eq_zero_of_not_pos fun positive => lost ⟨missing, positive⟩

end Field

end Bufr
