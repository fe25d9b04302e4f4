import Bufr.Proofs.Coding.Recoding
import Bufr.Proofs.Layout.Rescaling
import Mathlib.Algebra.Order.Floor.Div

/-!
Operator 2 07 YYY adds places and takes nothing away. A number in the bits of an element keeps its
place among the numbers of the finer field: its bits are multiplied by the power of ten, and the finer
field has room for them beside the missing one.
-/

namespace Bufr

open Bits (ofNumber? number?)

theorem pow_ten_le_two_pow (p : ℕ) : 10 ^ p ≤ 2 ^ ((10 * p) ⌈/⌉ 3) := by
  have rounded : 10 * p ≤ (10 * p) ⌈/⌉ 3 * 3 := by
    rw [Nat.ceilDiv_eq_add_pred_div]
    omega
  refine le_of_pow_le_pow_left₀ (n := 3) (by decide) (Nat.zero_le _) ?_
  calc (10 ^ p) ^ 3 = (10 ^ 3) ^ p := by rw [← pow_mul, ← pow_mul, mul_comm]
    _ ≤ (2 ^ 10) ^ p := Nat.pow_le_pow_left (by decide) p
    _ = 2 ^ (10 * p) := (pow_mul 2 10 p).symm
    _ ≤ 2 ^ ((10 * p) ⌈/⌉ 3 * 3) := Nat.pow_le_pow_right (by decide) rounded
    _ = (2 ^ ((10 * p) ⌈/⌉ 3)) ^ 3 := pow_mul 2 _ 3

/-! ## Finer fields -/

def ElementInfo.finer (info : ElementInfo) (places : ℕ) : Field :=
  ⟨info.code, info.width + (10 * places) ⌈/⌉ 3, info.scale + places, info.reference * 10 ^ places,
    false⟩

def Modifiers.finer (places : ℕ) : Modifiers := { Modifiers.none with precision := places }

/-- A number in the bits of an element, or none, that so many places can be added to. -/
structure Sample (resolver : Resolver) (places : ℕ) where
  code : Descriptor
  info : ElementInfo
  raw? : Option ℕ
  known : resolver.element code = .ok info
  isNumber : info.isText = false
  uncoded : info.isCoded = false
  outside : info.code.isQualifier = false
  wide : 1 ≤ info.width
  narrow : info.width + (10 * places) ⌈/⌉ 3 ≤ 62
  centred : |info.reference| * 10 ^ places < 2 ^ 62
  hasPlaces : -128 ≤ -info.scale ∧ -info.scale ≤ 127
  hasFinerPlaces : -128 ≤ -(info.scale + places) ∧ -(info.scale + places) ≤ 127
  present : ∀ raw, raw? = some raw → raw ≤ 2 ^ info.width - 2

namespace Sample

variable {resolver : Resolver} {places p : ℕ} (s : Sample resolver places)

def bits (p : ℕ) : Bits := ofNumber? (s.info.finer p).width (s.raw?.map (· * 10 ^ p))

def value (p : ℕ) : Value :=
  match s.raw? with
  | none => .missing
  | some raw => (s.info.finer p).numberOf (Int64.ofInt ((raw + s.info.reference) * 10 ^ p))

theorem narrow_finer (le : p ≤ places) : (s.info.finer p).width ≤ 62 := by
  have fewer : (10 * p) ⌈/⌉ 3 ≤ (10 * places) ⌈/⌉ 3 := by
    rw [Nat.ceilDiv_eq_add_pred_div, Nat.ceilDiv_eq_add_pred_div]
    omega
  exact (Nat.add_le_add_left fewer _).trans s.narrow

include s in
theorem few (le : p ≤ places) : p ≤ 18 := by
  refine Decimal.pow_ten_lt_iff.1 ((pow_ten_le_two_pow p).trans_lt ?_)
  have narrow : s.info.width + (10 * p) ⌈/⌉ 3 ≤ 62 := s.narrow_finer le
  exact Nat.pow_lt_pow_right (by decide) (by omega)

theorem hasPlaces_finer (le : p ≤ places) : (s.info.finer p).HasPlaces := by
  have coarse := s.hasPlaces
  have fine := s.hasFinerPlaces
  constructor <;> simp only [ElementInfo.finer] <;> omega

theorem centred_finer (le : p ≤ places) : |s.info.reference * 10 ^ p| < 2 ^ 62 := by
  have power : (10 : ℤ) ^ p ≤ 10 ^ places := by
    exact_mod_cast Nat.pow_le_pow_right (show 0 < 10 by decide) le
  calc |s.info.reference * 10 ^ p| = |s.info.reference| * 10 ^ p := by
        rw [abs_mul, abs_of_nonneg (show (0 : ℤ) ≤ 10 ^ p by positivity)]
    _ ≤ |s.info.reference| * 10 ^ places := mul_le_mul_of_nonneg_left power (abs_nonneg _)
    _ < 2 ^ 62 := s.centred

theorem room {raw : ℕ} (here : s.raw? = some raw) (p : ℕ) :
    raw * 10 ^ p + 2 ≤ 2 ^ (s.info.finer p).width := by
  have inside := s.present raw here
  have two : 2 ≤ 2 ^ s.info.width := Nat.pow_le_pow_right (show 0 < 2 by decide) s.wide
  have positive : 1 ≤ 10 ^ p := Nat.pow_pos (show 0 < 10 by decide)
  calc raw * 10 ^ p + 2 ≤ raw * 10 ^ p + 2 * 10 ^ p := by omega
    _ = (raw + 2) * 10 ^ p := (Nat.add_mul ..).symm
    _ ≤ 2 ^ s.info.width * 10 ^ p := Nat.mul_le_mul_right _ (by omega)
    _ ≤ 2 ^ s.info.width * 2 ^ ((10 * p) ⌈/⌉ 3) := Nat.mul_le_mul_left _ (pow_ten_le_two_pow p)
    _ = 2 ^ (s.info.finer p).width := (Nat.pow_add ..).symm

theorem number_lt {raw : ℕ} (here : s.raw? = some raw) (le : p ≤ places) :
    |(raw + s.info.reference) * 10 ^ p| < 2 ^ 63 := by
  have room := s.room here p
  have narrow : 2 ^ (s.info.finer p).width ≤ 2 ^ 62 :=
    Nat.pow_le_pow_right (by decide) (s.narrow_finer le)
  have small : (raw : ℤ) * 10 ^ p < 2 ^ 62 := by exact_mod_cast (by omega : raw * 10 ^ p < 2 ^ 62)
  have centred := s.centred_finer le
  calc |(raw + s.info.reference) * 10 ^ p| = |raw * 10 ^ p + s.info.reference * 10 ^ p| := by
        rw [add_mul]
    _ ≤ |(raw : ℤ) * 10 ^ p| + |s.info.reference * 10 ^ p| := abs_add_le _ _
    _ < 2 ^ 63 := by
        rw [abs_of_nonneg (show (0 : ℤ) ≤ raw * 10 ^ p by positivity)]
        omega

theorem raisedReference?_finer (le : p ≤ places) :
    Modifiers.raisedReference? s.info.reference p = some (s.info.reference * 10 ^ p) := by
  have power : Decimal.tenTo? p = some (10 ^ p) := if_pos (s.few le)
  obtain ⟨low, high⟩ := abs_lt.1 (s.centred_finer le)
  have word : Decimal.word? (s.info.reference * (10 ^ p : ℕ)) =
      some (Int64.ofInt (s.info.reference * 10 ^ p)) := by
    rw [Decimal.word?_eq_some_iff, Int64.toInt_ofInt_of_le (by omega) (by omega)]
    push_cast
    rfl
  simp only [Modifiers.raisedReference?, power, word, bind, Option.bind_some, pure]
  rw [Int64.toInt_ofInt_of_le (by omega) (by omega)]

theorem adjusted_finer (le : p ≤ places) : (Modifiers.finer p).adjusted s.info =
    .ok ((s.info.finer p).width, (s.info.finer p).scale, (s.info.finer p).reference) := by
  rcases Nat.eq_zero_or_pos p with rfl | positive
  · simp [Modifiers.adjusted, Modifiers.finer, Modifiers.none, s.isNumber, s.uncoded, s.outside,
      ElementInfo.finer]
  · simp [Modifiers.adjusted, Modifiers.finer, Modifiers.none, s.isNumber, s.uncoded, s.outside,
      ElementInfo.finer, positive.ne', s.raisedReference?_finer le, Nat.ceilDiv_eq_add_pred_div]

theorem field_finer (le : p ≤ places) :
    (Modifiers.finer p).field s.info .none = .ok (s.info.finer p, .finer p) := by
  have narrow := s.narrow_finer le
  obtain ⟨low, high⟩ := abs_lt.1 (s.centred_finer le)
  have isWidth : Modifiers.isWidth false (s.info.finer p).width := by
    simp [Modifiers.isWidth]
    omega
  have word : (Int64.ofInt (s.info.finer p).reference).toInt = (s.info.finer p).reference :=
    Int64.toInt_ofInt_of_le (by simp only [ElementInfo.finer]; omega)
      (by simp only [ElementInfo.finer]; omega)
  have unreferenced : (Modifiers.finer p).references = [] := rfl
  unfold Modifiers.field
  rw [s.adjusted_finer le]
  simp only [unreferenced, List.lookup_nil, Option.getD_none, s.isNumber, isWidth, ↓reduceIte, word,
    Int.toNat_natCast]
  rfl

/-! ## Numbers -/

theorem toInt_number {raw : ℕ} (here : s.raw? = some raw) (le : p ≤ places) :
    (Int64.ofInt ((raw + s.info.reference) * 10 ^ p)).toInt = (raw + s.info.reference) * 10 ^ p := by
  obtain ⟨low, high⟩ := abs_lt.1 (s.number_lt here le)
  exact Int64.toInt_ofInt_of_le (by omega) (by omega)

theorem hasParts_numberOf {field : Field} (places : field.HasPlaces) (m : Int64) :
    Value.HasParts (field.numberOf m) m (-field.scale) := by
  unfold Field.numberOf
  split
  next unscaled =>
    rw [unscaled]
    exact .integer
  next =>
    have parts : Value.HasParts (.decimal m (Int8.ofInt (-field.scale))) m _ := .decimal
    rwa [Field.toInt_negated places] at parts

theorem scaled_value {raw : ℕ} (here : s.raw? = some raw) (le : p ≤ places) :
    (s.value 0).scaled (s.info.finer p).scale =
      some (Int64.ofInt ((raw + s.info.reference) * 10 ^ p)) := by
  have shift : (s.info.finer p).scale + -(s.info.finer 0).scale = p := by
    simp only [ElementInfo.finer]
    omega
  rw [value, here]
  rw [(hasParts_numberOf (s.hasPlaces_finer (Nat.zero_le _)) _).scaled, shift]
  refine Decimal.rescale_of_product (s.few le) ?_
  rw [s.toInt_number here le, s.toInt_number here (Nat.zero_le _), pow_zero, mul_one]

theorem toRaw_value (le : p ≤ places) :
    (s.info.finer p).toRaw (s.value 0) = .ok (s.raw?.map (· * 10 ^ p)) := by
  rw [Field.toRaw_eq_ok_iff]
  cases here : s.raw? with
  | none => exact .inl ⟨by rw [value, here], rfl⟩
  | some raw =>
      have room := s.room here p
      have narrow : 2 ^ (s.info.finer p).width ≤ 2 ^ 62 :=
        Nat.pow_le_pow_right (by decide) (s.narrow_finer le)
      refine .inr ⟨_, raw * 10 ^ p, rfl, s.scaled_value here le, by omega, ?_⟩
      rw [s.toInt_number here le, add_mul]
      push_cast
      rfl

theorem fits (le : p ≤ places) : Bits.Fits (s.info.finer p).width (s.raw?.map (· * 10 ^ p)) := by
  intro n same
  obtain ⟨raw, here, rfl⟩ := Option.map_eq_some_iff.1 same
  have room := s.room here p
  have narrow := s.narrow_finer le
  rw [Bits.missing_eq (by omega)]
  omega

theorem writes (le : p ≤ places) : (s.info.finer p).Writes (s.value 0) (s.bits p) := by
  have narrow := s.narrow_finer le
  have number : (s.info.finer p).isText = false := rfl
  rw [Field.Writes, if_neg (Bool.eq_false_iff.1 number)]
  exact ⟨by omega, _, s.toRaw_value le, s.fits le, rfl⟩

theorem reads (le : p ≤ places) : (s.info.finer p).Reads (s.bits p) (s.value p) := by
  have narrow := s.narrow_finer le
  have number : (s.info.finer p).isText = false := rfl
  have positive : 0 < (s.info.finer p).width := Nat.lt_of_lt_of_le s.wide (Nat.le_add_right _ _)
  rw [Field.Reads, if_neg (Bool.eq_false_iff.1 number)]
  refine ⟨by omega, Bits.length_ofNumber? _ _, ?_⟩
  rw [bits, Bits.number?_ofNumber? (by omega) positive (s.fits le), value]
  cases here : s.raw? with
  | none => rfl
  | some raw =>
      have room := s.room here p
      have narrow : 2 ^ (s.info.finer p).width ≤ 2 ^ 62 := Nat.pow_le_pow_right (by decide) narrow
      have small : raw * 10 ^ p < 2 ^ 63 := by omega
      refine Field.ofRaw_eq_ok_iff.2 ⟨_, ?_, s.hasPlaces_finer le, rfl⟩
      rw [s.toInt_number here le, Int64.toInt_ofNat_of_lt small, add_mul]
      push_cast
      rfl

theorem number?_value (le : p ≤ places) : (s.value p).number? =
    s.raw?.map fun raw : ℕ => ((raw + s.info.reference : ℤ) : ℚ) * 10 ^ (-s.info.scale) := by
  rw [value]
  cases here : s.raw? with
  | none => rfl
  | some raw =>
      have shift : (10 : ℚ) ^ p * 10 ^ (-(s.info.finer p).scale) = 10 ^ (-s.info.scale) := by
        rw [← zpow_natCast, ← zpow_add₀ (by norm_num)]
        congr 1
        simp only [ElementInfo.finer]
        omega
      rw [(hasParts_numberOf (s.hasPlaces_finer le) _).number?_eq, s.toInt_number here le]
      push_cast
      rw [mul_assoc, shift, Option.map_some]

/-! ## Runs -/

def action (p : ℕ) (v : Value) : Action := ⟨.value s.code (s.info.finer p) 0, (v, none)⟩

theorem writes_action (le : p ≤ places) : (s.action p (s.value 0)).Writes (s.bits p) :=
  ⟨[], s.bits p, rfl, rfl, s.writes le⟩

theorem reads_action (le : p ≤ places) : (s.action p (s.value p)).Reads (s.bits p) :=
  Field.readsBoth_of_reads (s.reads le)

theorem step_value {σ : Situation} (modifiers : σ.modifiers = .finer p) (idle : σ.bitmap = .none)
    (le : p ≤ places) : Situation.Step resolver σ (.element s.code)
      (.value s.code (s.info.finer p) 0) (σ.emit s.code) := by
  obtain ⟨m, bitmap, codes, referable⟩ := σ
  cases modifiers
  cases idle
  have begins : Situation.Begins ⟨.finer p, .none, codes, referable⟩ s.code
      ⟨.finer p, .none, codes, referable⟩ :=
    ⟨rfl, fun entry => Bool.noConfusion entry.2, rfl⟩
  have noGap : (Modifiers.finer p).pass s.code = (false, .finer p) := rfl
  have free : Bitmap.none.takesElement s.code = false := by
    simp [Bitmap.takesElement, Bitmap.none]
  have bare : (Modifiers.finer p).associatedWidthOf s.code = 0 := ite_self 0
  have step := Situation.Step.value begins s.known noGap (s.field_finer le) free
  rwa [bare] at step

variable (samples : List (Sample resolver places))

def steps : List Opcode := samples.map fun s => .element s.code

def events : List Event := samples.map fun s => .element s.code

def actions (p : ℕ) (given : Sample resolver places → Value) : List Action :=
  samples.map fun s => s.action p (given s)

def subset (p : ℕ) : Subset := ⟨(samples.map fun s => .ofValue s.code (s.value p)).toArray, #[]⟩

theorem plays_events {template : Template} {position : ℕ}
    (here : template.ops.toList.drop position = steps samples) :
    Walk.Plays resolver ⟨template, position, []⟩ (events samples) := by
  induction samples generalizing position with
  | nil => exact .done (Walk.next_at_end here)
  | cons s samples ih => exact .element (Walk.next_at_top here) (ih (Walk.drop_succ here))

theorem log_actions (given : Sample resolver places → Value) (le : p ≤ places) {σ : Situation}
    (modifiers : σ.modifiers = .finer p) (idle : σ.bitmap = .none) :
    ∃ σ', Situation.Log resolver σ (events samples) (actions samples p given) σ' ∧
      σ'.settle = .ok σ' := by
  induction samples generalizing σ with
  | nil => exact ⟨σ, .nil, (Situation.settle_idle (idle ▸ rfl)).2 rfl⟩
  | cons s samples ih =>
      have taskOk := Situation.task_of_step (s.step_value modifiers idle le)
      have modifiers' : (σ.emit s.code).modifiers = .finer p := modifiers
      obtain ⟨σ', log, settled⟩ := ih modifiers' idle
      have log' := @Situation.Log.cons _ _ _ _ _ _ (s.action p (given s)).task _ (given s, none) taskOk
        log
      exact ⟨σ', log', settled⟩

theorem spelled_actions {P : Action → Bits → Prop} {given : Sample resolver places → Value}
    (each : ∀ s : Sample resolver places, P (s.action p (given s)) (s.bits p)) :
    Bits.Spelled P (actions samples p given) (samples.flatMap (·.bits p)) := by
  induction samples with
  | nil => exact .nil
  | cons s samples ih => exact .cons (each s) ih

theorem supplies_actions {subset : Subset} {given : Sample resolver places → Value} {taken defined : ℕ}
    (here : subset.vars.toList.drop taken = samples.map fun s => .ofValue s.code (given s)) :
    SuppliesAll resolver subset ⟨taken, defined, []⟩ (actions samples p given)
      ⟨taken + samples.length, defined, []⟩ := by
  induction samples generalizing taken with
  | nil => exact .nil
  | cons s samples ih =>
      have found : subset.vars[taken]? = some (.ofValue s.code (given s)) := by
        rw [← Array.getElem?_toList, ← List.head?_drop, here]
        rfl
      have behind : subset.vars.toList.drop (taken + 1) =
          samples.map fun s => .ofValue s.code (given s) := by
        rw [← List.tail_drop, here]
        rfl
      have first : Supplies resolver subset ⟨taken, defined, []⟩ (s.action p (given s))
          ⟨taken + 1, defined, []⟩ := @Supplies.value _ _ ⟨taken, defined, []⟩ _ _ _ _ rfl found rfl
      refine .cons first ?_
      rw [List.length_cons, Nat.add_comm samples.length, ← Nat.add_assoc]
      exact ih behind

theorem recordAll_actions (front : Subset) :
    front.recordAll (actions samples p (·.value p)) =
      ⟨front.vars ++ (subset samples p).vars, front.references⟩ := by
  induction samples generalizing front with
  | nil => simp [actions, subset, Subset.recordAll]
  | cons s samples ih =>
      show (front.push _).recordAll (actions samples p (·.value p)) = _
      rw [ih]
      simp [subset, Subset.push, Variable.ofValue]

def template : Template := ⟨(steps samples).toArray⟩

def finerTemplate {y : UInt8} (samples : List (Sample resolver y.toNat)) : Template :=
  ⟨(.operator (.operator 7 y) :: steps samples).toArray⟩

theorem logged_template (given : Sample resolver places → Value) :
    Situation.Logged resolver (template samples) (actions samples 0 given) := by
  obtain ⟨σ, log, settled⟩ := log_actions samples given (Nat.zero_le _) (σ := .start) rfl rfl
  exact ⟨_, σ, σ, plays_events samples rfl, log, settled⟩

variable {y : UInt8}

theorem logged_finerTemplate (samples : List (Sample resolver y.toNat))
    (given : Sample resolver y.toNat → Value) :
    Situation.Logged resolver (finerTemplate samples)
      (⟨.other, ()⟩ :: actions samples y.toNat given) := by
  have here : (finerTemplate samples).ops.toList.drop 0 =
      .operator (.operator 7 y) :: steps samples := rfl
  have plays := Walk.Plays.operator (Walk.next_at_top here) (plays_events samples (Walk.drop_succ here))
  have op : Operator.ofDescriptor (.operator 7 y) = .ok (.modify (.precision y.toNat)) := rfl
  have taskOk := Situation.task_of_step (@Situation.Step.modify resolver .start
    ⟨finerTemplate samples, 1, []⟩ _ _ op)
  obtain ⟨σ, log, settled⟩ := log_actions samples given (Nat.le_refl _)
    (σ := { Situation.start with modifiers := Modifiers.none.apply (.precision y.toNat) }) rfl rfl
  exact ⟨_, σ, σ, plays, @Situation.Log.cons _ _ _ _ _ _ .other _ () taskOk log, settled⟩

theorem reading_template :
    Reading resolver (template samples) (subset samples 0) (actions samples 0 (·.value 0))
      (samples.flatMap (·.bits 0)) where
  logged := logged_template samples _
  spelled := spelled_actions samples fun s => s.reads_action (Nat.zero_le _)
  recorded := by simp [recordAll_actions, Subset.empty, subset]

theorem reading_finerTemplate (samples : List (Sample resolver y.toNat)) :
    Reading resolver (finerTemplate samples) (subset samples y.toNat)
      (⟨.other, ()⟩ :: actions samples y.toNat (·.value y.toNat))
      (samples.flatMap (·.bits y.toNat)) where
  logged := logged_finerTemplate samples _
  spelled := .cons (x := []) (Eq.refl []) (spelled_actions samples fun s => s.reads_action (Nat.le_refl _))
  recorded := by
    show _ = Subset.empty.recordAll (actions samples y.toNat (·.value y.toNat))
    simp [recordAll_actions, Subset.empty, subset]

theorem writing_finerTemplate (samples : List (Sample resolver y.toNat)) :
    Writing resolver (finerTemplate samples) (subset samples 0)
      (⟨.other, ()⟩ :: actions samples y.toNat (·.value 0)) (samples.flatMap (·.bits y.toNat)) where
  logged := logged_finerTemplate samples _
  spelled := .cons (x := []) (Eq.refl []) (spelled_actions samples fun s => s.writes_action (Nat.le_refl _))
  supplied := by
    have supplied : SuppliesAll resolver (subset samples 0) ⟨0, 0, []⟩
        (actions samples y.toNat (·.value 0)) ⟨0 + samples.length, 0, []⟩ :=
      supplies_actions samples rfl
    have all : (subset samples 0).size = 0 + samples.length := by simp [Subset.size, subset]
    exact ⟨0, all ▸ .cons .other supplied⟩

/-- What so many places more mean for the number: its bits are those of the product, short of the
missing ones, and it stays the number that it is. -/
structure Keeps (p : ℕ) : Prop where
  length : (s.bits p).length = s.info.width + (10 * p) ⌈/⌉ 3
  written : ∀ raw, s.raw? = some raw →
    s.bits p = Bits.ofNat (s.bits p).length (raw * 10 ^ p) ∧ raw * 10 ^ p < Bits.missing (s.bits p).length
  number : ∀ raw, s.raw? = some raw →
    (s.value p).number? = some (((raw + s.info.reference : ℤ) : ℚ) * 10 ^ (-s.info.scale))
  missing : s.raw? = none → s.value p = .missing

theorem keeps (le : p ≤ places) : s.Keeps p where
  length := Bits.length_ofNumber? _ _
  written raw here := by
    have narrow := s.narrow_finer le
    have room := s.room here p
    rw [bits, Bits.length_ofNumber?, Bits.missing_eq (by omega), here]
    exact ⟨rfl, by omega⟩
  number raw here := by
    rw [s.number?_value le, here]
    rfl
  missing here := by rw [value, here]

def octets (p : ℕ) : Octets := (Bits.Writer.empty.push (samples.flatMap (·.bits p))).finish

/-- Numbers that were decoded without the operator are encoded and decoded under it, with all the
places that it adds, and none of them becomes another number or goes missing. -/
theorem finer_numbers (samples : List (Sample resolver y.toNat)) :
    (∀ data rest, Bits.ofOctets data = samples.flatMap (·.bits 0) ++ rest →
      decodeSubsets resolver (template samples) data 1 = .ok [subset samples 0]) ∧
    encodeSubsets resolver (finerTemplate samples) [subset samples 0] =
      .ok (octets samples y.toNat) ∧
    decodeSubsets resolver (finerTemplate samples) (octets samples y.toNat) 1 =
      .ok [subset samples y.toNat] ∧
    ∀ s ∈ samples, ∀ p ≤ y.toNat, s.Keeps p := by
  have fit : Subset.fit 1 := by decide
  refine ⟨fun data rest begins => ?_, ?_, ?_, fun s _ p le => s.keeps le⟩
  · exact decodeSubsets_ok_iff.2 ⟨fit, rfl, _, rest,
      .cons ⟨_, reading_template samples⟩ .nil, by rw [begins, List.append_nil]⟩
  · refine encodeSubsets_ok_iff.2 ⟨_, .cons ⟨_, writing_finerTemplate samples⟩ .nil, ?_⟩
    rw [List.append_nil, octets]
  · obtain ⟨filling, begins⟩ := ofOctets_finish_push (samples.flatMap (·.bits y.toNat))
    exact decodeSubsets_ok_iff.2 ⟨fit, rfl, _, filling,
      .cons ⟨_, reading_finerTemplate samples⟩ .nil, by rw [octets, begins, List.append_nil]⟩

theorem element_temperature : Resolver.station.element (.element 12 101) =
    .ok ⟨.element 12 101, "TEMPERATURE/AIR TEMPERATURE", "K", 2, 0, 16, false⟩ := rfl

theorem element_dewpoint : Resolver.station.element (.element 12 103) =
    .ok ⟨.element 12 103, "DEWPOINT TEMPERATURE", "K", 2, 0, 16, false⟩ := rfl

def stationSamples : List (Sample .station (2 : UInt8).toNat) := [
  { code := .element 12 101
    info := ⟨.element 12 101, "TEMPERATURE/AIR TEMPERATURE", "K", 2, 0, 16, false⟩
    raw? := some 27315
    known := element_temperature
    isNumber := rfl
    uncoded := by decide
    outside := rfl
    wide := by decide
    narrow := by decide
    centred := by decide
    hasPlaces := by decide
    hasFinerPlaces := by decide
    present := by simp },
  { code := .element 12 103
    info := ⟨.element 12 103, "DEWPOINT TEMPERATURE", "K", 2, 0, 16, false⟩
    raw? := none
    known := element_dewpoint
    isNumber := rfl
    uncoded := by decide
    outside := rfl
    wide := by decide
    narrow := by decide
    centred := by decide
    hasPlaces := by decide
    hasFinerPlaces := by decide
    present := nofun }]

theorem finer_numbers_stationSamples :
    decodeSubsets .station (template stationSamples) [0x6a, 0xb3, 0xff, 0xff] 1 =
      .ok [subset stationSamples 0] ∧
    encodeSubsets .station (finerTemplate stationSamples) [subset stationSamples 0] =
      .ok [0x53, 0x5b, 0xd9, 0xff, 0xff, 0xfc] ∧
    decodeSubsets .station (finerTemplate stationSamples) [0x53, 0x5b, 0xd9, 0xff, 0xff, 0xfc] 1 =
      .ok [subset stationSamples 2] ∧
    ∀ s ∈ stationSamples, ∀ p ≤ 2, s.Keeps p := by
  obtain ⟨decoded, encoded, again, keeps⟩ := finer_numbers (y := 2) stationSamples
  have bits : octets stationSamples 2 = [0x53, 0x5b, 0xd9, 0xff, 0xff, 0xfc] := by decide +kernel
  exact ⟨decoded _ [] (by decide +kernel), bits ▸ encoded, bits ▸ again, keeps⟩

end Sample

end Bufr
