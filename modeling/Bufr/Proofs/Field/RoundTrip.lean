import Bufr.Proofs.Field.Spelling

namespace Bufr

open Bits (number? ofNumber? Fits missing)

namespace Value

def isAscii : Value → Bool
  | text content => content.toList.all fun c => c.toNat < 128
  | _ => true

def cut (octets : Nat) (content : String) : String := String.ofList (content.toList.take octets)

/-- What a value is read back as from a field of so many octets, rounded to the places of the field
or cut to its length. -/
inductive ReadsBack (octets : Nat) : Value → Value → Prop where
  | missing : ReadsBack octets .missing .missing
  | integer {value m} (rounded : value.scaled 0 = some m) : ReadsBack octets value (.integer m)
  | decimal {value m e} (rounded : value.scaled (-e.toInt) = some m) :
      ReadsBack octets value (.decimal m e)
  | text {content} :
      ReadsBack octets (.text content) (.text (Field.withoutFilling (cut octets content)))

end Value

namespace Field

/-! ## Numbers -/

def HasPlaces (field : Field) : Prop := -127 ≤ field.scale ∧ field.scale ≤ 128

def numberOf (field : Field) (m : Int64) : Value :=
  if field.scale = 0 then .integer m else .decimal m (Int8.ofInt (-field.scale))

theorem ofRaw_eq_ok_iff {field : Field} {raw : Nat} {value : Value} :
    field.ofRaw raw = .ok value ↔
      ∃ m : Int64, m.toInt = (Int64.ofNat raw).toInt + field.reference ∧ field.HasPlaces ∧
        value = field.numberOf m := by
  unfold ofRaw HasPlaces numberOf
  split
  next outside =>
    constructor
    · intro impossible; cases impossible
    · rintro ⟨m, sum, _⟩
      rw [← sum, Decimal.word?_toInt] at outside
      cases outside
  next m inside =>
    have sum := Decimal.word?_eq_some_iff.1 inside
    have only {m' : Int64} (sum' : m'.toInt = (Int64.ofNat raw).toInt + field.reference) : m' = m :=
      Int64.toInt_inj.1 (sum'.trans sum.symm)
    split
    next unscaled =>
      constructor
      · intro read
        cases read
        exact ⟨m, sum, by omega, rfl⟩
      · rintro ⟨m', sum', _, rfl⟩
        rw [only sum']
    next scaled =>
      split
      next places =>
        constructor
        · intro read
          cases read
          exact ⟨m, sum, by omega, rfl⟩
        · rintro ⟨m', sum', _, rfl⟩
          rw [only sum']
      next places =>
        constructor
        · intro impossible; cases impossible
        · rintro ⟨_, _, _, _⟩
          omega

theorem rescale_zero (m : Int64) : Decimal.rescale m 0 = some m := by
  simp [Decimal.rescale, Decimal.tenTo?, Decimal.word?_toInt]

theorem toInt_negated {field : Field} (places : field.HasPlaces) :
    (Int8.ofInt (-field.scale)).toInt = -field.scale := by
  obtain ⟨low, high⟩ := places
  exact Int8.toInt_ofInt_of_le (by omega) (by omega)

theorem scaled_numberOf {field : Field} (places : field.HasPlaces) (m : Int64) :
    (field.numberOf m).scaled field.scale = some m := by
  unfold numberOf
  split
  next unscaled => rw [Value.scaled, unscaled, rescale_zero]
  next scaled =>
    rw [Value.scaled, toInt_negated places, Int.add_right_neg, rescale_zero]

theorem readsBack_numberOf {field : Field} (places : field.HasPlaces) {value : Value} {m : Int64}
    {octets : Nat} (scaled : value.scaled field.scale = some m) :
    value.ReadsBack octets (field.numberOf m) := by
  unfold numberOf
  split
  next unscaled => exact .integer (unscaled ▸ scaled)
  next => exact .decimal (by rwa [toInt_negated places, Int.neg_neg])

theorem toRaw_eq_ok_iff {field : Field} {value : Value} {raw? : Option Nat} :
    field.toRaw value = .ok raw? ↔
      (value = .missing ∧ raw? = none) ∨
      ∃ m raw, raw? = some raw ∧ value.scaled field.scale = some m ∧ raw < 2 ^ 63 ∧
        m.toInt = raw + field.reference := by
  unfold toRaw
  split
  next => simp [Value.scaled, eq_comm]
  next => simp [Value.scaled]
  next present _ =>
    rw [or_iff_right fun missing => present missing.1]
    split
    next overflow => simp [overflow]
    next m scaled =>
      cases left : Decimal.above? m.toInt field.reference with
      | none =>
          simp only [reduceCtorEq, false_iff]
          rintro ⟨_, raw, _, same, above⟩
          cases scaled.symm.trans same
          cases left.symm.trans (Decimal.above?_eq_some_iff.2 above)
      | some raw =>
          simp only [Except.ok.injEq, scaled, Option.some.injEq]
          constructor
          · rintro rfl
            exact ⟨m, raw, rfl, rfl, Decimal.above?_eq_some_iff.1 left⟩
          · rintro ⟨_, raw', rfl, rfl, above⟩
            exact left.symm.trans (Decimal.above?_eq_some_iff.2 above)

/-! ## Texts -/

theorem readsText_of_writesText (code : Descriptor) {octets : Nat} {value : Value} {x : Bits}
    (written : WritesText octets value x) (ascii : value.isAscii) :
    ∃ value', ReadsText code octets x value' ∧ (octets = 0 ∨ value.ReadsBack octets value') := by
  cases value with
  | integer => cases written
  | decimal => cases written
  | missing =>
      rcases Nat.eq_zero_or_pos octets with rfl | positive
      · exact ⟨.text "", ⟨[], rfl, written.symm, ofOctets_ofText code ""⟩, Or.inl rfl⟩
      · exact ⟨.missing, ⟨_, List.length_replicate, written.symm, ofOctets_missing code positive⟩,
          Or.inr .missing⟩
  | text content =>
      obtain ⟨_, rfl⟩ := written
      have small : ∀ c ∈ content.toList, c.toNat < 128 := by
        intro c mem
        have := List.all_eq_true.1 ascii c mem
        exact of_decide_eq_true this
      have front : (Octets.ofText content).take octets = Octets.ofText (Value.cut octets content) := by
        have all := Octets.ofText_ascii small
        rw [String.ofList_toList] at all
        rw [all, Value.cut, ← List.map_take,
          Octets.ofText_ascii fun c mem => small c (List.mem_of_mem_take mem)]
      have same : Bits.Writer.padded octets (Octets.ofText content) =
          Octets.ofText (String.ofList ((Value.cut octets content).toList ++
            List.replicate (octets - (Octets.ofText (Value.cut octets content)).length) ' ')) := by
        rw [Bits.Writer.padded, front, Octets.ofText_append, String.ofList_toList,
          Octets.ofText_spaces]
      refine ⟨.text (withoutFilling (Value.cut octets content)),
        ⟨_, Bits.Writer.length_padded _ _, rfl, ?_⟩, Or.inr .text⟩
      rw [same, ofOctets_ofText, withoutFilling_of_fills]

theorem writesText_of_readsText {code : Descriptor} {octets : Nat} {value : Value} {x : Bits}
    (read : ReadsText code octets x value) (fits : octets ≤ Bits.Writer.maxCapacity) :
    ∃ y, WritesText octets value y ∧ ReadsText code octets y value := by
  obtain ⟨text, rfl, rfl, found⟩ := read
  rcases ofOctets_eq_ok found with ⟨all, positive, rfl⟩ | ⟨content, rfl, rfl⟩
  · exact ⟨_, congrArg Bits.ofOctets all, text, rfl, rfl, found⟩
  · obtain ⟨filling, split⟩ := exists_filling content
    have room : (Octets.ofText (withoutFilling content)).length ≤ (Octets.ofText content).length := by
      rw [Octets.ofText_eq content, split, List.flatMap_append, ← Octets.ofText_eq,
        List.length_append]
      exact Nat.le_add_right _ _
    refine ⟨_, ⟨fits, rfl⟩, _, Bits.Writer.length_padded _ _, rfl, ?_⟩
    rw [Bits.Writer.padded, List.take_of_length_le room, ← Octets.ofText_spaces]
    nth_rewrite 1 [← String.ofList_toList (s := withoutFilling content)]
    rw [← Octets.ofText_append, ofOctets_ofText, withoutFilling_of_fills,
      withoutFilling_withoutFilling]

/-! ## Fields -/

def bits (field : Field) : Nat := if field.isText then 8 * field.octetCount else field.width

theorem length_of_readsText {code : Descriptor} {octets : Nat} {x : Bits} {value : Value}
    (read : ReadsText code octets x value) : x.length = 8 * octets := by
  obtain ⟨text, rfl, rfl, _⟩ := read
  exact Bits.length_ofOctets text

theorem length_of_reads {field : Field} {x : Bits} {value : Value} (read : field.Reads x value) :
    x.length = field.bits := by
  unfold Reads at read
  unfold bits
  split at read
  next isText => rw [if_pos isText, length_of_readsText read]
  next isNumber => rw [if_neg isNumber, read.2.1]

theorem ofRaw?_of_toRaw {field : Field} {value : Value} {raw? : Option Nat} {x : Bits}
    (narrow : field.width ≤ 64) (raw : field.toRaw value = .ok raw?) (fits : Fits field.width raw?)
    (spelled : x = ofNumber? field.width raw?)
    (places : field.HasPlaces ∨ value = .missing ∧ 0 < field.width)
    (word : ∃ w : Int64, w.toInt = field.reference) :
    ∃ value', field.ofRaw? (number? x) = .ok value' ∧
      (field.width = 0 ∨ value.ReadsBack field.octetCount value') := by
  rcases Nat.eq_zero_or_pos field.width with zero | positive
  · -- A field without bits holds the reference value, whatever was written.
    obtain ⟨w, reference⟩ := word
    have places : field.HasPlaces := by
      rcases places with places | ⟨_, positive⟩
      · exact places
      · omega
    have empty : number? x = some 0 := by
      rw [spelled, zero]
      rfl
    rw [empty]
    exact ⟨_, ofRaw_eq_ok_iff.2 ⟨w, by simpa using reference, places, rfl⟩, Or.inl zero⟩
  · rw [spelled, Bits.number?_ofNumber? narrow positive fits]
    rcases toRaw_eq_ok_iff.1 raw with ⟨rfl, rfl⟩ | ⟨m, n, rfl, scaled, small, sum⟩
    · exact ⟨.missing, rfl, Or.inr .missing⟩
    · have places : field.HasPlaces := by
        rcases places with places | ⟨rfl, _⟩
        · exact places
        · cases scaled
      refine ⟨field.numberOf m, ofRaw_eq_ok_iff.2 ⟨m, ?_, places, rfl⟩,
        Or.inr (readsBack_numberOf places scaled)⟩
      rw [Int64.toInt_ofNat_of_lt small, sum]

theorem reads_of_writes {field : Field} {value : Value} {x : Bits}
    (written : field.Writes value x) (ascii : value.isAscii)
    (places : field.isText ∨ field.HasPlaces ∨ value = .missing ∧ 0 < field.width)
    (word : ∃ w : Int64, w.toInt = field.reference) :
    ∃ value', field.Reads x value' ∧
      (field.bits = 0 ∨ value.ReadsBack field.octetCount value') := by
  unfold Writes at written
  unfold Reads bits
  split at written
  next isText =>
    simp only [isText, ↓reduceIte]
    obtain ⟨value', read, back⟩ := readsText_of_writesText field.code written ascii
    exact ⟨value', read, back.imp_left fun zero => by omega⟩
  next isNumber =>
    simp only [isNumber, Bool.false_eq_true, ↓reduceIte]
    obtain ⟨narrow, raw?, raw, fits, spelled⟩ := written
    obtain ⟨value', read, back⟩ := ofRaw?_of_toRaw narrow raw fits spelled
      (places.resolve_left isNumber) word
    exact ⟨value', ⟨narrow, spelled ▸ Bits.length_ofNumber? _ _, read⟩, back⟩

theorem writes_of_reads {field : Field} {value : Value} {x : Bits} (read : field.Reads x value)
    (narrow : field.isText = false → field.width ≤ 63)
    (fits : field.octetCount ≤ Bits.Writer.maxCapacity) :
    ∃ y, field.Writes value y ∧ field.Reads y value := by
  unfold Reads Writes at *
  split at read
  next isText =>
    simp only [isText, ↓reduceIte]
    exact writesText_of_readsText read fits
  next isNumber =>
    simp only [isNumber, Bool.false_eq_true, ↓reduceIte]
    obtain ⟨wide, long, read⟩ := read
    have inField := Bits.fits_number? (x := x) (by omega)
    have spelled := Bits.ofNumber?_number? x
    rw [long] at inField spelled
    refine ⟨x, ⟨wide, number? x, ?_, inField, spelled.symm⟩, wide, long, read⟩
    cases found : number? x with
    | none =>
        rw [found] at read
        cases read
        rfl
    | some raw =>
        rw [found] at read
        obtain ⟨m, sum, places, rfl⟩ := ofRaw_eq_ok_iff.1 read
        have small : raw < 2 ^ 63 := by
          have le := (inField raw found).1
          have := Bits.missing_lt wide
          have := Nat.pow_le_pow_right (show 0 < 2 by decide)
            (narrow (Bool.eq_false_iff.2 isNumber))
          omega
        rw [Int64.toInt_ofNat_of_lt small] at sum
        exact toRaw_eq_ok_iff.2 (Or.inr ⟨m, raw, rfl, scaled_numberOf places m, small, sum⟩)

end Field

end Bufr
