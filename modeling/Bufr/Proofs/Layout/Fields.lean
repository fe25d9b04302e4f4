import Bufr.Proofs.Coding.Situation
import Bufr.Proofs.Layout.Rounding
import Bufr.Template

/-!
The place of a value in the data, from the table and the operators before it. Only the operators that
change width, scale and text length are considered here; steps before a value are listed with the
latest first.
-/

namespace Bufr

open Bits (toNat ofNumber? missing)

def operand? (operatorClass : UInt8) : List Opcode → Option UInt8
  | [] => none
  | .operator code :: earlier =>
    if code.x = operatorClass then some code.y else operand? operatorClass earlier
  | _ :: earlier => operand? operatorClass earlier

/-- What the last operator of a class adds to width or scale; operand zero takes changes back. -/
def change (operatorClass : UInt8) (earlier : List Opcode) : Int :=
  match operand? operatorClass earlier with
  | none => 0
  | some y => if y = 0 then 0 else y.toNat - 128

def givenOctets? (earlier : List Opcode) : Option Nat :=
  match operand? 8 earlier with
  | none => none
  | some y => if y = 0 then none else some y.toNat

namespace ElementInfo

/-- Numbers outside class 31 that are no entries of a code or flag table. -/
def isChanged (info : ElementInfo) : Bool :=
  !info.isText && !info.isCoded && !info.code.isQualifier

def widthAfter (info : ElementInfo) (earlier : List Opcode) : Int :=
  if info.isChanged then info.width + change 1 earlier else info.width

def scaleAfter (info : ElementInfo) (earlier : List Opcode) : Int :=
  if info.isChanged then info.scale + change 2 earlier else info.scale

def octetsAfter (info : ElementInfo) (earlier : List Opcode) : Nat :=
  (givenOctets? earlier).getD (info.width / 8)

def referenceWord (info : ElementInfo) : Int := (Int64.ofInt info.reference).toInt

inductive Holds (info : ElementInfo) (earlier : List Opcode) : Value → Bits → Prop where
  | number {value amount x} (numeric : info.isText = false)
      (is_amount : value.number? = some amount) (long : x.length = info.widthAfter earlier)
      (raw : (toNat x : Int) =
        roundAway (amount * 10 ^ info.scaleAfter earlier) - info.referenceWord) :
      Holds info earlier value x
  | missingNumber {x} (numeric : info.isText = false) (long : x.length = info.widthAfter earlier)
      (ones : x = List.replicate x.length true) : Holds info earlier .missing x
  | text {content} (isText : info.isText) :
      Holds info earlier (.text content) (Bits.ofOctets
        ((Octets.ofText content ++ List.replicate (info.octetsAfter earlier) 0x20).take
          (info.octetsAfter earlier)))
  | missingText (isText : info.isText) :
      Holds info earlier .missing (List.replicate (8 * info.octetsAfter earlier) true)

/-- The bits hold the count of a delayed replication. No operator changes its field. -/
structure HoldsCount (info : ElementInfo) (count : UInt64) (x : Bits) : Prop where
  long : x.length = info.width
  raw : (toNat x : Int) = count.toNat - info.referenceWord

end ElementInfo

/-! ## Operators -/

def Modifiers.after (earlier : List Opcode) : Modifiers :=
  { Modifiers.none with
    widthDelta := change 1 earlier
    scaleDelta := change 2 earlier
    textLength? := givenOctets? earlier }

def Descriptor.isFormatChange (code : Descriptor) : Bool := code.x == 1 || code.x == 2 || code.x == 8

theorem ofDescriptor_isFormatChange {code : Descriptor} {op : Operator} (plain : code.isFormatChange)
    (known : Operator.ofDescriptor code = .ok op) :
    Operator.ofOperand? code.x.toNat code.y.toNat = some op := by
  obtain ⟨f, x, y⟩ := code
  simp only [Descriptor.isFormatChange, Bool.or_eq_true, beq_iff_eq] at plain
  unfold Operator.ofDescriptor at known
  have unmarked : BitmapKind.ofClass? x = none := by
    rcases plain with (rfl | rfl) | rfl <;> rfl
  simp only [unmarked] at known
  split at known
  next found =>
    cases known
    exact found
  · cases known

theorem operator_of_isFormatChange {code : Descriptor} {op : Operator} (plain : code.isFormatChange)
    (known : Operator.ofDescriptor code = .ok op) (earlier : List Opcode) :
    ∃ modification, op = .modify modification ∧
      (Modifiers.after earlier).apply modification = .after (.operator code :: earlier) := by
  have found := ofDescriptor_isFormatChange plain known
  obtain ⟨f, x, y⟩ := code
  have zero_iff : y.toNat = 0 ↔ y = 0 := UInt8.toNat_inj (b := 0)
  simp only [Descriptor.isFormatChange, Bool.or_eq_true, beq_iff_eq] at plain
  rcases plain with (rfl | rfl) | rfl
  · refine ⟨.width (if y = 0 then 0 else y.toNat - 128), ?_, rfl⟩
    simp only [Operator.ofOperand?, UInt8.reduceToNat] at found
    split at found <;> simp_all
  · refine ⟨.scale (if y = 0 then 0 else y.toNat - 128), ?_, rfl⟩
    simp only [Operator.ofOperand?, UInt8.reduceToNat] at found
    split at found <;> simp_all
  · refine ⟨.textLength y.toNat, ?_, ?_⟩
    · simp only [Operator.ofOperand?, UInt8.reduceToNat] at found
      simp_all
    · simp only [Modifiers.apply, zero_iff]
      rfl

/-! ## Fields -/

namespace Bits

theorem ofOctets_missing (count : Nat) :
    ofOctets (List.replicate count 0xff) = List.replicate (8 * count) true := by
  induction count with
  | zero => rfl
  | succ count ih =>
      rw [List.replicate_succ, ofOctets_cons, ih, Nat.mul_succ, Nat.add_comm, List.replicate_add]
      rfl

theorem padded_eq_take (length : Nat) (octets : Octets) :
    Writer.padded length octets = (octets ++ List.replicate length 0x20).take length := by
  rw [Writer.padded, List.take_append, List.take_replicate, List.length_take]
  congr 2
  omega

end Bits

namespace Modifiers

variable {info : ElementInfo} {earlier : List Opcode} {field : Field} {m' : Modifiers}

theorem after_of_field (fieldOk : (after earlier).field info .none = .ok (field, m')) :
    m' = after earlier := by
  obtain ⟨_, _, _, _, _, _, rfl⟩ := Situation.field_ok_iff.1 fieldOk
  rfl

theorem adjusted_number (numeric : info.isText = false) {width scale reference : Int}
    (adjusted : (after earlier).adjusted info = .ok (width, scale, reference)) :
    width = info.widthAfter earlier ∧ scale = info.scaleAfter earlier ∧ reference = info.reference := by
  unfold Modifiers.adjusted at adjusted
  simp only [numeric, Bool.false_eq_true, ↓reduceIte] at adjusted
  split at adjusted
  next fixed =>
    cases adjusted
    have unchanged : info.isChanged = false := by
      rcases Bool.or_eq_true_iff.1 fixed with coded | qualifier
      · simp [ElementInfo.isChanged, coded]
      · simp [ElementInfo.isChanged, qualifier]
    simp [ElementInfo.widthAfter, ElementInfo.scaleAfter, unchanged]
  next changed =>
    cases adjusted
    have isChanged : info.isChanged := by
      simpa [ElementInfo.isChanged, numeric] using changed
    simp [ElementInfo.widthAfter, ElementInfo.scaleAfter, isChanged, after]

theorem adjusted_text (isText : info.isText) {width scale reference : Int}
    (adjusted : (after earlier).adjusted info = .ok (width, scale, reference))
    (whole : width % 8 = 0) : width = 8 * info.octetsAfter earlier := by
  unfold Modifiers.adjusted at adjusted
  unfold ElementInfo.octetsAfter
  cases length : givenOctets? earlier with
  | none =>
      simp only [isText, ↓reduceIte, after, length, Except.ok.injEq, Prod.mk.injEq] at adjusted
      rw [Option.getD_none]
      omega
  | some octets =>
      simp only [isText, ↓reduceIte, after, length, Except.ok.injEq, Prod.mk.injEq] at adjusted
      rw [Option.getD_some]
      omega

theorem holds_of_writesText {octets : Nat} (isText : info.isText)
    (same : octets = info.octetsAfter earlier) {v : Value} {x : Bits}
    (written : Field.WritesText octets v x) : info.Holds earlier v x := by
  subst same
  cases v with
  | missing =>
      cases written
      rw [Bits.ofOctets_missing]
      exact .missingText isText
  | text content =>
      obtain ⟨_, rfl⟩ := written
      rw [Bits.padded_eq_take]
      exact .text isText
  | integer | decimal => cases written

theorem holds_of_field (fieldOk : (after earlier).field info .none = .ok (field, m')) {v : Value}
    {x : Bits} (written : field.Writes v x) : info.Holds earlier v x := by
  obtain ⟨width, scale, reference, adjusted, isWidth, rfl, _⟩ := Situation.field_ok_iff.1 fieldOk
  simp only [Option.elim, Option.getD, after, Modifiers.none, List.lookup_nil] at isWidth written
  simp only [Modifiers.isWidth, Bool.and_eq_true, decide_eq_true_eq] at isWidth
  obtain ⟨positive, isWidth⟩ := isWidth
  cases isText : info.isText with
  | true =>
    simp only [isText, ↓reduceIte, Bool.and_eq_true, beq_iff_eq] at isWidth
    simp only [Field.Writes, isText, ↓reduceIte] at written
    have octets := adjusted_text isText adjusted isWidth.1
    exact holds_of_writesText isText (by simp only [Field.octetCount]; omega) written
  | false =>
    obtain ⟨rfl, rfl, rfl⟩ := adjusted_number isText adjusted
    simp only [Field.Writes, isText, Bool.false_eq_true, ↓reduceIte] at written
    obtain ⟨narrow, raw?, raw, fits, rfl⟩ := written
    have long : ((info.widthAfter earlier).toNat : Int) = info.widthAfter earlier :=
      Int.toNat_of_nonneg positive
    -- The word that was written is the rounded number above the reference value.
    rcases Field.toRaw_eq_ok_iff.1 raw with ⟨rfl, rfl⟩ | ⟨m, n, rfl, scaled, _, sum⟩
    · refine .missingNumber isText ?_ ?_
      · rwa [Bits.length_ofNumber?]
      · rw [Bits.length_ofNumber?]
        exact Bits.ofNat_missing narrow
    · obtain ⟨amount, is_amount, rounded⟩ := Value.toInt_scaled scaled
      have held : toNat (ofNumber? (info.widthAfter earlier).toNat (some n)) = n :=
        Bits.toNat_ofNat_of_le narrow (fits n rfl).1
      refine .number isText is_amount ?_ ?_
      · rwa [Bits.length_ofNumber?]
      · simp only at rounded sum
        rw [held, ← rounded, sum, ElementInfo.referenceWord, Int.add_sub_cancel]

end Modifiers

end Bufr
