import Bufr.Modifiers
import Bufr.Proofs.Field.RoundTrip
import Bufr.Template.Walk

/-!
Coding apart from its direction. At each event both coders have the same task, and an action is a
task with its data. Reading finds the data in the bits of the task, writing chooses bits for them.
-/

namespace Bufr

open Bits (number? ofNumber? Fits missing toNat)

inductive Task where
  | define (code : Descriptor) (width : Nat)
  | entry
  | skip (code : Descriptor)
  | count (code : Descriptor) (info : ElementInfo) (passes : UInt64)
  | unlisted (code : Descriptor) (width : Nat)
  | value (code : Descriptor) (field : Field) (associatedWidth : Nat)
  | attach (target : Nat) (code : Descriptor) (field : Field) (associatedWidth : Nat)
  | opens (kind : BitmapKind) (walk : Walk) (referable : Array Nat)
  | reuses
  | cancels
  | other

namespace Task

abbrev Data : Task → Type
  | define .. => Int
  | entry => Bool
  | unlisted .. => Value
  | value .. => Value × Option Nat
  | attach .. => Value × Option Nat
  | _ => Unit

end Task

structure Action where
  task : Task
  data : task.Data

/-! ## Bits -/

namespace Field

def unlisted (code : Descriptor) (width : Nat) : Field := ⟨code, width, 0, 0, false⟩

def inserted (code : Descriptor) (octets : Nat) : Field := ⟨code, 8 * octets, 0, 0, true⟩

@[simp] theorem octetCount_inserted (code : Descriptor) (octets : Nat) :
    (inserted code octets).octetCount = octets :=
  Nat.mul_div_cancel_left octets (by decide)

def ReadsAssociated (width : Nat) (x : Bits) (associated : Option Nat) : Prop :=
  width ≤ 64 ∧ x.length = width ∧ associated = if width = 0 then none else number? x

def WritesAssociated (width : Nat) (associated : Option Nat) (x : Bits) : Prop :=
  if width = 0 then x = []
  else width ≤ 64 ∧ Fits width associated ∧ x = ofNumber? width associated

def ReadsBoth (field : Field) (width : Nat) (x : Bits) (data : Value × Option Nat) : Prop :=
  ∃ y z, x = y ++ z ∧ ReadsAssociated width y data.2 ∧ field.Reads z data.1

def WritesBoth (field : Field) (width : Nat) (data : Value × Option Nat) (x : Bits) : Prop :=
  ∃ y z, x = y ++ z ∧ WritesAssociated width data.2 y ∧ field.Writes data.1 z

theorem readsBoth_zero_iff {field : Field} {x : Bits} {v : Value} {associated : Option Nat} :
    field.ReadsBoth 0 x (v, associated) ↔ associated = none ∧ field.Reads x v := by
  constructor
  · rintro ⟨y, z, rfl, ⟨_, empty, rfl⟩, read⟩
    cases List.length_eq_zero_iff.1 empty
    exact ⟨rfl, read⟩
  · rintro ⟨rfl, read⟩
    exact ⟨[], x, rfl, ⟨by decide, rfl, rfl⟩, read⟩

theorem writesBoth_zero_iff {field : Field} {x : Bits} {data : Value × Option Nat} :
    field.WritesBoth 0 data x ↔ field.Writes data.1 x := by
  constructor
  · rintro ⟨_, z, rfl, rfl, written⟩
    exact written
  · exact fun written => ⟨[], x, rfl, rfl, written⟩

end Field

namespace Task

def emitted? : Task → Option Descriptor
  | skip code => some code
  | count code _ _ => some code
  | unlisted code _ => some code
  | value code _ _ => some code
  | _ => none

def Settles : Task → Prop
  | skip .. => True
  | unlisted .. => True
  | value .. => True
  | attach .. => True
  | opens .. => True
  | cancels => True
  | _ => False

def IsSilent : Task → Prop
  | opens .. => True
  | reuses => True
  | cancels => True
  | other => True
  | _ => False

def Reads : (task : Task) → Bits → task.Data → Prop
  | define _ width, x, reference => 2 ≤ width ∧ width ≤ 64 ∧ x.length = width ∧ x.signed = reference
  | entry, x, present => x = [!present]
  | count _ info passes, x, _ =>
    info.width ≤ 64 ∧ x.length = info.width ∧
      (Int64.ofInt (toNat x + info.reference)).toInt = passes.toNat
  | unlisted code width, x, v => (Field.unlisted code width).Reads x v
  | value _ field width, x, data => field.ReadsBoth width x data
  | attach _ _ field width, x, data => field.ReadsBoth width x data
  | _, x, _ => x = []

def Writes : (task : Task) → task.Data → Bits → Prop
  | define _ width, reference, x =>
    2 ≤ width ∧ width ≤ 64 ∧ reference.natAbs ≤ missing (width - 1) ∧
      x = Bits.ofSigned width reference
  | entry, present, x => x = [!present]
  | count _ info passes, _, x =>
    info.width ≤ 64 ∧ passes.toNat < 2 ^ 63 ∧
      ∃ raw : Nat, raw < 2 ^ 63 ∧ raw ≤ missing info.width ∧
        passes.toNat = raw + (Int64.ofInt info.reference).toInt ∧ x = Bits.ofNat info.width raw
  | unlisted code width, v, x =>
    (∀ m e, v ≠ .decimal m e) ∧ (Field.unlisted code width).Writes v x
  | value _ field width, data, x => field.WritesBoth width data x
  | attach _ _ field width, data, x => field.WritesBoth width data x
  | _, _, x => x = []

end Task

namespace Action

def Reads (action : Action) (x : Bits) : Prop := action.task.Reads x action.data

def Writes (action : Action) (x : Bits) : Prop := action.task.Writes action.data x

end Action

/-! ## Round trips -/

def Field.IsSound (field : Field) : Prop :=
  (∃ w : Int64, w.toInt = field.reference) ∧ field.width < 2 ^ 32

namespace Task

def IsSound : Task → Prop
  | value _ field _ => field.IsSound
  | attach _ _ field _ => field.IsSound
  | _ => True

def IsAscii : (task : Task) → task.Data → Prop
  | value .., data => data.1.isAscii
  | attach .., data => data.1.isAscii
  | _, _ => True

def PlacesOk (field : Field) (v : Value) : Prop :=
  field.isText ∨ field.HasPlaces ∨ v = .missing ∧ 0 < field.width

/-- Every number has a scale that a decimal can have. A missing value in a field without bits counts
as a number, as it is read back as one. -/
def HasPlaces : (task : Task) → task.Data → Prop
  | value _ field _, data => PlacesOk field data.1
  | attach _ _ field _, data => PlacesOk field data.1
  | _, _ => True

def IsNarrow : Task → Prop
  | value _ field _ => field.isText = false → field.width ≤ 63
  | attach _ _ field _ => field.isText = false → field.width ≤ 63
  | count _ info _ => info.width ≤ 63
  | unlisted _ width => width ≤ 63
  | _ => True

/-- The value of a field without bits is its own matter. -/
def BothReadBack (field : Field) (width : Nat) (written read : Value × Option Nat) : Prop :=
  (field.bits = 0 ∨ written.1.ReadsBack field.octetCount read.1) ∧
    read.2 = if width = 0 then none else written.2

def ReadsBack : (task : Task) → (written read : task.Data) → Prop
  | value _ field width, written, read => BothReadBack field width written read
  | attach _ _ field width, written, read => BothReadBack field width written read
  | unlisted _ width, written, read => width = 0 ∨ written = read
  | define .., written, read => written = read
  | entry, written, read => written = read
  | _, _, _ => True

theorem readsAssociated_of_writes {width : Nat} {associated : Option Nat} {x : Bits}
    (written : Field.WritesAssociated width associated x) :
    Field.ReadsAssociated width x (if width = 0 then none else associated) := by
  unfold Field.WritesAssociated at written
  split at written
  next zero =>
    rw [written, if_pos zero]
    exact ⟨by omega, zero.symm, by rw [if_pos zero]⟩
  next nonzero =>
    obtain ⟨narrow, fits, rfl⟩ := written
    rw [if_neg nonzero]
    refine ⟨narrow, Bits.length_ofNumber? _ _, ?_⟩
    rw [if_neg nonzero, Bits.number?_ofNumber? narrow (by omega) fits]

theorem writesAssociated_of_reads {width : Nat} {associated : Option Nat} {x : Bits}
    (read : Field.ReadsAssociated width x associated) :
    Field.WritesAssociated width associated x := by
  obtain ⟨narrow, rfl, rfl⟩ := read
  unfold Field.WritesAssociated
  split
  next zero => exact List.length_eq_zero_iff.1 zero
  next nonzero => exact ⟨narrow, Bits.fits_number? narrow, (Bits.ofNumber?_number? x).symm⟩

theorem readsBoth_of_writes {field : Field} {width : Nat} {data : Value × Option Nat} {x : Bits}
    (written : field.WritesBoth width data x) (sound : field.IsSound) (ascii : data.1.isAscii)
    (places : PlacesOk field data.1) :
    ∃ data', field.ReadsBoth width x data' ∧ BothReadBack field width data data' := by
  obtain ⟨y, z, rfl, front, back⟩ := written
  obtain ⟨v, read, same⟩ := Field.reads_of_writes back ascii places sound.1
  exact ⟨(v, _), ⟨y, z, rfl, readsAssociated_of_writes front, read⟩, same, rfl⟩

theorem writesBoth_of_reads {field : Field} {width : Nat} {data : Value × Option Nat} {x : Bits}
    (read : field.ReadsBoth width x data) (sound : field.IsSound)
    (narrow : field.isText = false → field.width ≤ 63) :
    ∃ x', field.WritesBoth width data x' ∧ field.ReadsBoth width x' data ∧ x'.length = x.length := by
  obtain ⟨y, z, rfl, front, back⟩ := read
  have room : field.octetCount ≤ Bits.Writer.maxCapacity := by
    have := sound.2
    unfold Field.octetCount Bits.Writer.maxCapacity
    omega
  obtain ⟨z', written, again⟩ := Field.writes_of_reads back narrow room
  refine ⟨y ++ z', ⟨y, z', rfl, writesAssociated_of_reads front, written⟩,
    ⟨y, z', rfl, front, again⟩, ?_⟩
  rw [List.length_append, List.length_append, Field.length_of_reads back,
    Field.length_of_reads again]

theorem places_unlisted (code : Descriptor) (width : Nat) : (Field.unlisted code width).HasPlaces := by
  simp [Field.HasPlaces, Field.unlisted]

theorem writesUnlisted_iff {code : Descriptor} {width : Nat} {v : Value} {x : Bits} :
    ((∀ m e, v ≠ .decimal m e) ∧ (Field.unlisted code width).Writes v x) ↔
      width ≤ 64 ∧ ∃ n?, (v = .missing ∧ n? = none ∨
        ∃ n : Int64, v = .integer n ∧ 0 ≤ n.toInt ∧ n? = some n.toInt.toNat) ∧
        Fits width n? ∧ x = ofNumber? width n? := by
  constructor
  · rintro ⟨whole, narrow, n?, raw, fits, rfl⟩
    refine ⟨narrow, n?, ?_, fits, rfl⟩
    refine (Field.toRaw_eq_ok_iff.1 raw).imp_right ?_
    rintro ⟨m, n, rfl, scaled, small, sum⟩
    cases v with
    | missing | text => cases scaled
    | decimal m e => exact absurd rfl (whole m e)
    | integer n' =>
        have same : n' = m := Option.some.inj ((Field.rescale_zero n').symm.trans scaled)
        have whole : n'.toInt = n := same ▸ sum.trans (Int.add_zero _)
        exact ⟨n', rfl, by omega, by rw [whole]; rfl⟩
  · rintro ⟨narrow, n?, value, fits, rfl⟩
    rcases value with ⟨rfl, rfl⟩ | ⟨n, rfl, positive, rfl⟩
    · exact ⟨nofun, narrow, none, Field.toRaw_eq_ok_iff.2 (Or.inl ⟨rfl, rfl⟩), fits, rfl⟩
    · refine ⟨nofun, narrow, some n.toInt.toNat, Field.toRaw_eq_ok_iff.2 (Or.inr ?_), fits, rfl⟩
      have := n.toInt_lt
      exact ⟨n, n.toInt.toNat, rfl, Field.rescale_zero n, by omega,
        (Int.toNat_of_nonneg positive).symm.trans (Int.add_zero _).symm⟩

theorem readsUnlisted_of_writes {code : Descriptor} {width : Nat} {v : Value} {x : Bits}
    (whole : ∀ m e, v ≠ .decimal m e) (written : (Field.unlisted code width).Writes v x) :
    ∃ v', (Field.unlisted code width).Reads x v' ∧ (width = 0 ∨ v = v') := by
  obtain ⟨narrow, n?, value, fits, rfl⟩ := writesUnlisted_iff.1 ⟨whole, written⟩
  have places := places_unlisted code width
  rcases Nat.eq_zero_or_pos width with rfl | positive
  · refine ⟨.integer 0, ⟨narrow, rfl, ?_⟩, Or.inl rfl⟩
    have empty : number? (ofNumber? 0 n?) = some 0 := rfl
    rw [empty]
    show (Field.unlisted code 0).ofRaw 0 = .ok (.integer 0)
    exact Field.ofRaw_eq_ok_iff.2 ⟨0, by simp [Field.unlisted], places, rfl⟩
  · refine ⟨v, ⟨narrow, Bits.length_ofNumber? _ _, ?_⟩, Or.inr rfl⟩
    rw [Bits.number?_ofNumber? narrow positive fits]
    rcases value with ⟨rfl, rfl⟩ | ⟨n, rfl, positive, rfl⟩
    · rfl
    · have := n.toInt_lt
      refine Field.ofRaw_eq_ok_iff.2 ⟨n, ?_, places, rfl⟩
      rw [Int64.toInt_ofNat_of_lt (by omega)]
      exact (Int.toNat_of_nonneg positive).symm.trans (Int.add_zero _).symm

theorem writesUnlisted_of_reads {code : Descriptor} {width : Nat} {v : Value} {x : Bits}
    (read : (Field.unlisted code width).Reads x v) (narrow : width ≤ 63) :
    (∀ m e, v ≠ .decimal m e) ∧ ∃ x', (Field.unlisted code width).Writes v x' ∧
      (Field.unlisted code width).Reads x' v ∧ x'.length = x.length := by
  obtain ⟨x', written, again⟩ := Field.writes_of_reads read (fun _ => narrow)
    (show width / 8 ≤ Bits.Writer.maxCapacity by unfold Bits.Writer.maxCapacity; omega)
  refine ⟨?_, x', written, again, by rw [Field.length_of_reads read, Field.length_of_reads again]⟩
  intro m e decimal
  obtain ⟨_, _, found⟩ := read
  cases number : number? x with
  | none =>
      rw [number] at found
      cases decimal.symm.trans (Except.ok.inj found).symm
  | some raw =>
      rw [number] at found
      obtain ⟨n, _, _, same⟩ := Field.ofRaw_eq_ok_iff.1 found
      cases decimal.symm.trans same

theorem toInt_ofInt_add (n reference : Int) :
    (Int64.ofInt (n + reference)).toInt =
      (n + (Int64.ofInt reference).toInt).bmod (2 ^ 64) := by
  rw [Int64.toInt_ofInt, Int64.toInt_ofInt]
  exact (Int.add_bmod_bmod).symm

theorem reads_of_writes {task : Task} {data : task.Data} {x : Bits} (written : task.Writes data x)
    (sound : task.IsSound) (ascii : task.IsAscii data) (places : task.HasPlaces data) :
    ∃ data', task.Reads x data' ∧ task.ReadsBack data data' := by
  cases task with
  | define code width =>
      obtain ⟨wide, narrow, fits, rfl⟩ := written
      exact ⟨data, ⟨wide, narrow, Bits.length_ofSigned data wide, Bits.signed_ofSigned narrow fits⟩,
        rfl⟩
  | entry => exact ⟨data, written, rfl⟩
  | count code info passes =>
      obtain ⟨narrow, small, raw, rawSmall, fits, sum, rfl⟩ := written
      refine ⟨data, ⟨narrow, Bits.length_ofNat _ _, ?_⟩, trivial⟩
      rw [Bits.toNat_ofNat_of_le narrow fits, toInt_ofInt_add, ← sum]
      exact Int.bmod_eq_of_le (by omega) (by omega)
  | unlisted code width => exact readsUnlisted_of_writes written.1 written.2
  | value code field width => exact readsBoth_of_writes written sound ascii places
  | attach target code field width => exact readsBoth_of_writes written sound ascii places
  | skip => exact ⟨data, written, trivial⟩
  | opens => exact ⟨data, written, trivial⟩
  | reuses => exact ⟨data, written, trivial⟩
  | cancels => exact ⟨data, written, trivial⟩
  | other => exact ⟨data, written, trivial⟩

/-- A count of less than 64 bits does not wrap around. -/
theorem sum_of_count {code : Descriptor} {info : ElementInfo} {passes : UInt64} {x : Bits}
    (read : Reads (.count code info passes) x ()) (narrow : info.width ≤ 63) :
    toNat x < 2 ^ 63 ∧ (passes.toNat : Int) = toNat x + (Int64.ofInt info.reference).toInt := by
  obtain ⟨_, long, sum⟩ := read
  have inside := (Int64.ofInt (toNat x + info.reference)).toInt_lt
  have low := (Int64.ofInt info.reference).le_toInt
  have high := (Int64.ofInt info.reference).toInt_lt
  have small : toNat x < 2 ^ 63 := by
    have := Bits.toNat_lt x
    have := Nat.pow_le_pow_right (show 0 < 2 by decide) (show x.length ≤ 63 from long ▸ narrow)
    omega
  rw [toInt_ofInt_add, Int.bmod_def] at sum
  refine ⟨small, ?_⟩
  split at sum <;> omega

theorem writes_of_reads {task : Task} {data : task.Data} {x : Bits} (read : task.Reads x data)
    (sound : task.IsSound) (narrow : task.IsNarrow) :
    ∃ y, task.Writes data y ∧ task.Reads y data ∧ y.length = x.length := by
  cases task with
  | define code width =>
      obtain ⟨wide, narrow, rfl, rfl⟩ := read
      have fits := Bits.natAbs_signed_le narrow
      exact ⟨_, ⟨wide, narrow, fits, rfl⟩, ⟨wide, narrow, Bits.length_ofSigned _ wide,
        Bits.signed_ofSigned narrow fits⟩, Bits.length_ofSigned _ wide⟩
  | entry => exact ⟨x, read, read, rfl⟩
  | count code info passes =>
      obtain ⟨small, sum⟩ := sum_of_count read narrow
      obtain ⟨wide, long, whole⟩ := read
      have few := (Int64.ofInt (toNat x + info.reference)).toInt_lt
      refine ⟨x, ⟨wide, by omega, toNat x, small, ?_, sum, ?_⟩, ⟨wide, long, whole⟩, rfl⟩
      · exact long ▸ Bits.toNat_le_missing (long ▸ wide)
      · rw [← long, Bits.ofNat_toNat]
  | unlisted code width =>
      obtain ⟨whole, y, written, again⟩ := writesUnlisted_of_reads read narrow
      exact ⟨y, ⟨whole, written⟩, again⟩
  | value code field width => exact writesBoth_of_reads read sound narrow
  | attach target code field width => exact writesBoth_of_reads read sound narrow
  | skip => exact ⟨x, read, read, rfl⟩
  | opens => exact ⟨x, read, read, rfl⟩
  | reuses => exact ⟨x, read, read, rfl⟩
  | cancels => exact ⟨x, read, read, rfl⟩
  | other => exact ⟨x, read, read, rfl⟩

end Task

end Bufr
