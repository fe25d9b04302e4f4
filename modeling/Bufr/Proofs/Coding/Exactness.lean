import Bufr.Proofs.Coding.Operators
import Bufr.Proofs.Coding.Recording
import Bufr.Proofs.Layout.Rounding

/-!
Numbers as they are read. The value of a field is the number in its bits over the reference value, in
units of its scale, with nothing rounded or wrapped on the way. Only the bits themselves are a signed
word: a field of 64 bits whose first bit is set tells a number that is `2 ^ 64` too low.
-/

namespace Bufr

open Bits (number?)

namespace Bits

def word (raw : Nat) : Int := if raw < 2 ^ 63 then raw else raw - 2 ^ 64

theorem word_of_lt {raw : Nat} (small : raw < 2 ^ 63) : word raw = raw := if_pos small

theorem toInt_ofNat {raw : Nat} (fits : raw < 2 ^ 64) : (Int64.ofNat raw).toInt = word raw := by
  rw [Int64.toInt_ofNat', word, Int64.size, Int.bmod_def]
  split <;> split <;> omega

theorem lt_of_number? {x : Bits} {raw width : Nat} (number : number? x = some raw)
    (narrow : x.length ≤ width) : raw < 2 ^ width := by
  unfold number? at number
  split at number <;> cases number
  exact Nat.lt_of_lt_of_le (toNat_lt x) (Nat.pow_le_pow_right (by decide) narrow)

end Bits

namespace Field

/-- The value is `(n + reference) * 10 ^ -scale`, an integer where there is no scale. -/
def Shows (field : Field) (n : Int) : Value → Prop
  | .integer m => field.scale = 0 ∧ m.toInt = n + field.reference
  | .decimal m e => field.scale ≠ 0 ∧ m.toInt = n + field.reference ∧ e.toInt = -field.scale
  | _ => False

structure Tells (whole : Nat → Int) (field : Field) (x : Bits) (v : Value) : Prop where
  length : x.length = field.width
  missing : number? x = none → v = .missing
  shows : ∀ raw, number? x = some raw → field.Shows (whole raw) v

variable {field : Field} {v : Value} {x : Bits}

theorem number?_of_shows {n : Int} (shows : field.Shows n v) :
    v.number? = some (((n + field.reference : Int) : ℚ) * 10 ^ (-field.scale)) := by
  cases v with
  | integer m =>
      obtain ⟨unscaled, sum⟩ := shows
      rw [unscaled, Int.neg_zero, zpow_zero, mul_one, Value.number?, sum]
  | decimal m e =>
      obtain ⟨_, sum, exponent⟩ := shows
      rw [Value.number?, sum, exponent]
  | missing | text => cases shows

theorem shows_numberOf {n : Int} {m : Int64} (places : field.HasPlaces)
    (sum : m.toInt = n + field.reference) : field.Shows n (field.numberOf m) := by
  unfold numberOf
  split
  next unscaled => exact ⟨unscaled, sum⟩
  next scaled => exact ⟨scaled, sum, toInt_negated places⟩

theorem tells_of_reads (read : field.Reads x v) (number : field.isText = false) :
    field.Tells Bits.word x v := by
  rw [Reads, if_neg (Bool.eq_false_iff.1 number)] at read
  obtain ⟨narrow, long, found⟩ := read
  refine ⟨long, fun none => ?_, fun raw some => ?_⟩
  · rw [none] at found
    exact (Except.ok.inj found).symm
  · rw [some] at found
    obtain ⟨m, sum, places, rfl⟩ := ofRaw_eq_ok_iff.1 found
    rw [Bits.toInt_ofNat (Bits.lt_of_number? some (long ▸ narrow))] at sum
    exact shows_numberOf places sum

theorem Tells.exact (tells : field.Tells Bits.word x v) (narrow : field.width ≤ 63) :
    field.Tells Nat.cast x v where
  length := tells.length
  missing := tells.missing
  shows raw some := by
    have small := Bits.lt_of_number? some (tells.length ▸ narrow)
    exact Bits.word_of_lt small ▸ tells.shows raw some

theorem Tells.nonnegative (tells : field.Tells Nat.cast x v) (reference : 0 ≤ field.reference)
    {q : ℚ} (number : v.number? = some q) : 0 ≤ q := by
  cases found : number? x with
  | none =>
      rw [tells.missing found] at number
      cases number
  | some raw =>
      rw [number?_of_shows (tells.shows raw found)] at number
      cases number
      have sum : (0 : ℤ) ≤ (raw : ℤ) + field.reference := by omega
      have sum' : (0 : ℚ) ≤ (((raw : ℤ) + field.reference : ℤ) : ℚ) := by exact_mod_cast sum
      exact mul_nonneg sum' (zpow_nonneg (by norm_num) _)

end Field

/-! ## The numbers of a data section -/

namespace Action

def filled? : Action → Option (Field × Value)
  | ⟨.unlisted code width, value⟩ => some (.unlisted code width, value)
  | ⟨.value _ field _, data⟩ => some (field, data.1)
  | ⟨.attach _ _ field _, data⟩ => some (field, data.1)
  | _ => none

/-- What an action reads, with its number told by the last bits, behind those of an associated field.
A number of fewer than 64 bits is negative only over a negative reference value. -/
structure Tells (whole : Nat → Int) (action : Action) (x : Bits) : Prop where
  reads : action.Reads x
  told : ∀ field v, action.filled? = some (field, v) → field.isText = false →
    ∃ y z, x = y ++ z ∧ field.Tells whole z v
  nonnegative : ∀ field v q, action.filled? = some (field, v) → field.isText = false →
    field.width ≤ 63 → 0 ≤ field.reference → v.number? = some q → 0 ≤ q

theorem exists_tells {action : Action} {x : Bits} {field : Field} {v : Value}
    (read : action.Reads x) (filled : action.filled? = some (field, v))
    (number : field.isText = false) : ∃ y z, x = y ++ z ∧ field.Tells Bits.word z v := by
  obtain ⟨task, data⟩ := action
  cases task with
  | unlisted =>
      cases filled
      exact ⟨[], x, rfl, Field.tells_of_reads read number⟩
  | value | attach =>
      cases filled
      obtain ⟨y, z, rfl, _, read⟩ := read
      exact ⟨y, z, rfl, Field.tells_of_reads read number⟩
  | _ => cases filled

theorem tells_of_reads {action : Action} {x : Bits} (read : action.Reads x) :
    action.Tells Bits.word x where
  reads := read
  told _ _ filled number := exists_tells read filled number
  nonnegative _ _ _ filled number narrow reference some := by
    obtain ⟨_, _, _, tells⟩ := exists_tells read filled number
    exact (tells.exact narrow).nonnegative reference some

end Action

def Subset.IsTold (whole : Nat → Int) (resolver : Resolver) (template : Template) (subset : Subset)
    (x : Bits) : Prop :=
  ∃ actions, Situation.Logged resolver template actions ∧
    Bits.Spelled (Action.Tells whole) actions x ∧ subset = Subset.empty.recordAll actions

/-- Whatever was decoded, the bits of every number taken as a signed word tell its value. -/
theorem decodeSubsets_tells {resolver : Resolver} {template : Template} {data : Octets} {count : Nat}
    {subsets : List Subset} (decoded : decodeSubsets resolver template data count = .ok subsets) :
    ∃ x y, Bits.ofOctets data = x ++ y ∧
      Bits.Spelled (Subset.IsTold Bits.word resolver template) subsets x := by
  obtain ⟨_, _, x, y, spelled, split⟩ := decodeSubsets_ok_iff.1 decoded
  refine ⟨x, y, split, spelled.imp ?_⟩
  rintro subset x ⟨actions, reading⟩
  exact ⟨actions, reading.logged, reading.spelled.imp fun _ _ => Action.tells_of_reads,
    reading.recorded⟩

def wideTemplate (width : UInt8) : Template :=
  ⟨#[.operator (.operator 6 width), .element (.element 1 2)]⟩

def stationNumber : Resolver :=
  .among [⟨.element 1 2, "WMO STATION NUMBER", "Numeric", 0, 0, 10, false⟩]

theorem decodeSubsets_tells_stationNumber :
    decodeSubsets stationNumber (wideTemplate 63) [0xff, 0xff, 0xff, 0xff, 0xff, 0xff, 0xff, 0xfc] 1 =
        .ok [⟨#[.ofValue (.element 1 2) (.integer 9223372036854775806)], #[]⟩] ∧
      ∃ x y, Bits.ofOctets [0xff, 0xff, 0xff, 0xff, 0xff, 0xff, 0xff, 0xfc] = x ++ y ∧
        Bits.Spelled (Subset.IsTold Bits.word stationNumber (wideTemplate 63))
          [⟨#[.ofValue (.element 1 2) (.integer 9223372036854775806)], #[]⟩] x := by
  have decoded : decodeSubsets stationNumber (wideTemplate 63)
      [0xff, 0xff, 0xff, 0xff, 0xff, 0xff, 0xff, 0xfc] 1 =
        .ok [⟨#[.ofValue (.element 1 2) (.integer 9223372036854775806)], #[]⟩] := by decide +kernel
  exact ⟨decoded, decodeSubsets_tells decoded⟩

theorem Subset.IsTold.number {whole : Nat → Int} {subset : Subset} {x : Bits}
    (told : subset.IsTold whole stationNumber (wideTemplate 64) x) :
    ∃ field z v, field.reference = 0 ∧ Field.Tells whole field z v ∧
      subset.vars[0]?.map (·.value) = some v := by
  obtain ⟨actions, ⟨events, _, _, plays, log, _⟩, spelled, rfl⟩ := told
  have next₁ : (Walk.start (wideTemplate 64)).next =
      some (.operator (.operator 6 64), ⟨wideTemplate 64, 1, []⟩) := rfl
  have next₂ : (⟨wideTemplate 64, 1, []⟩ : Walk).next =
      some (.element (.element 1 2), ⟨wideTemplate 64, 2, []⟩) := rfl
  obtain ⟨_, rfl, behind⟩ := (Walk.plays_operator_iff next₁).1 plays
  obtain ⟨_, rfl, ended⟩ := (Walk.plays_element_iff next₂).1 behind
  cases (Walk.plays_done_iff rfl).1 ended
  obtain _ | ⟨_, widened, log⟩ := log
  cases widened
  obtain _ | ⟨data, numbered, log⟩ := log
  cases numbered
  cases log
  obtain _ | ⟨_, _ | ⟨tells, _⟩⟩ := spelled
  obtain ⟨_, z, _, tells⟩ := tells.told _ _ rfl rfl
  exact ⟨_, z, data.1, rfl, tells, rfl⟩

/-- The bits alone, as an unsigned number, do not tell the value of a field of 64 bits. -/
theorem not_always_exact :
    ¬∀ (resolver : Resolver) (template : Template) (data : Octets) (count : Nat)
      (subsets : List Subset), decodeSubsets resolver template data count = .ok subsets →
        ∃ x y, Bits.ofOctets data = x ++ y ∧
          Bits.Spelled (Subset.IsTold Nat.cast resolver template) subsets x := by
  intro claimed
  have decoded : decodeSubsets stationNumber (wideTemplate 64) [0x80, 0, 0, 0, 0, 0, 0, 0] 1 =
      .ok [⟨#[.ofValue (.element 1 2) (.integer (-9223372036854775808))], #[]⟩] := by decide +kernel
  obtain ⟨_, _, _, spelled⟩ := claimed _ _ _ _ _ decoded
  obtain _ | ⟨told, _⟩ := spelled
  obtain ⟨field, z, v, reference, tells, value⟩ := told.number
  cases value
  cases number : Bits.number? z with
  | none => cases tells.missing number
  | some raw =>
      obtain ⟨_, sum⟩ := tells.shows raw number
      have least : (-9223372036854775808 : Int64).toInt = -9223372036854775808 := by decide
      rw [least, reference] at sum
      omega

end Bufr
