import Bufr.Proofs.Coding.Exactness
import Bufr.Proofs.Coding.Refusals
import Bufr.Proofs.Layout.Rescaling

/-!
Numbers as they come back. A number is rounded once, when it is scaled for its field, so what is read of
its bits is no further from it than half a unit of the last place of the field.
-/

namespace Bufr

open Bits (number? ofNumber?)

namespace Field

variable {field : Field} {v v' : Value} {x : Bits}

def Near (field : Field) (v v' : Value) : Prop :=
  ∀ q, v.number? = some q → ∃ q', v'.number? = some q' ∧ |q' - q| ≤ 10 ^ (-field.scale) / 2

theorem number?_ofNumber?_some {width raw : ℕ} (narrow : width ≤ 64)
    (fits : Bits.Fits width (some raw)) : number? (ofNumber? width (some raw)) = some raw := by
  rcases Nat.eq_zero_or_pos width with rfl | positive
  · -- Without bits there is only zero.
    have zero : raw = 0 := Nat.le_zero.1 (fits raw rfl).1
    rw [zero]
    rfl
  · exact Bits.number?_ofNumber? narrow positive fits

theorem near_of_scaled {m : Int64} (scaled : v.scaled field.scale = some m)
    (shown : v'.number? = some ((m.toInt : ℚ) * 10 ^ (-field.scale))) : field.Near v v' := by
  intro q number
  obtain ⟨q₀, number₀, rounded⟩ := Value.toInt_scaled scaled
  cases number.symm.trans number₀
  refine ⟨_, shown, ?_⟩
  have unit : (0 : ℚ) < 10 ^ field.scale := zpow_pos (by norm_num) _
  have near := (isNearest_roundAway (q * 10 ^ field.scale)).near
  rw [← rounded] at near
  have apart : (m.toInt : ℚ) * 10 ^ (-field.scale) - q =
      (m.toInt - q * 10 ^ field.scale) * 10 ^ (-field.scale) := by
    rw [sub_mul, mul_assoc, ← zpow_add₀ (by norm_num), add_neg_cancel, zpow_zero, mul_one]
  calc |(m.toInt : ℚ) * 10 ^ (-field.scale) - q|
      = |(m.toInt : ℚ) - q * 10 ^ field.scale| * 10 ^ (-field.scale) := by
        rw [apart, abs_mul, abs_of_nonneg (Value.unit_nonneg _)]
    _ ≤ 1 / 2 * 10 ^ (-field.scale) := mul_le_mul_of_nonneg_right near (Value.unit_nonneg _)
    _ = 10 ^ (-field.scale) / 2 := by ring

theorem near_of_writes_of_reads (isNumber : field.isText = false) (written : field.Writes v x)
    (read : field.Reads x v') : field.Near v v' := by
  rw [Writes, if_neg (Bool.eq_false_iff.1 isNumber)] at written
  rw [Reads, if_neg (Bool.eq_false_iff.1 isNumber)] at read
  obtain ⟨narrow, raw?, raw, fits, rfl⟩ := written
  rcases toRaw_eq_ok_iff.1 raw with ⟨rfl, -⟩ | ⟨m, n, rfl, scaled, small, sum⟩
  · intro q number
    cases number
  · obtain ⟨-, -, found⟩ := read
    rw [number?_ofNumber?_some narrow fits] at found
    obtain ⟨m', sum', places, rfl⟩ := ofRaw_eq_ok_iff.1 found
    rw [Int64.toInt_ofNat_of_lt small] at sum'
    refine near_of_scaled scaled ?_
    rw [number?_of_shows (shows_numberOf places sum'), sum]

theorem not_refuses_of_hasPlaces (isNumber : field.isText = false) (places : field.HasPlaces)
    (e : Error) : ¬field.Refuses v e := by
  intro refuses
  cases refuses with
  | cut isText => exact absurd isText (Bool.eq_false_iff.1 isNumber)
  | scale _ unplaced => exact unplaced places

end Field

/-! ## Actions -/

inductive Action.Near : Action → Action → Prop where
  | mk {task : Task} {written read : task.Data}
      (near : ∀ field v, Action.filled? ⟨task, written⟩ = some (field, v) → field.isText = false →
        ∃ v', Action.filled? ⟨task, read⟩ = some (field, v') ∧ field.Near v v') :
      Near ⟨task, written⟩ ⟨task, read⟩

namespace Task

variable {field : Field} {width : ℕ} {x : Bits}

theorem near_of_both {written read : Value × Option ℕ} (isNumber : field.isText = false)
    (writes : field.WritesBoth width written x) (reads : field.ReadsBoth width x read) :
    field.Near written.1 read.1 := by
  obtain ⟨y, z, rfl, front, back⟩ := writes
  obtain ⟨y', z', split, front', back'⟩ := reads
  have long : y.length = y'.length := (readsAssociated_of_writes front).2.1.trans front'.2.1.symm
  obtain ⟨rfl, rfl⟩ := List.append_inj split long
  exact Field.near_of_writes_of_reads isNumber back back'

end Task

namespace Action

theorem near_of_writes_of_reads {task : Task} {written read : task.Data} {x : Bits}
    (writes : task.Writes written x) (reads : task.Reads x read) :
    Near ⟨task, written⟩ ⟨task, read⟩ := by
  refine ⟨fun field v filled isNumber => ?_⟩
  cases task with
  | unlisted =>
      cases filled
      exact ⟨_, rfl, Field.near_of_writes_of_reads isNumber writes.2 reads⟩
  | value | attach =>
      cases filled
      exact ⟨_, rfl, Task.near_of_both isNumber writes reads⟩
  | _ => cases filled

theorem ComesBack.near {action action' : Action} (back : action.ComesBack action') :
    action.Near action' := by
  obtain ⟨y, written, read, ⟨-⟩⟩ := back
  exact near_of_writes_of_reads written read

section

variable {action : Action} {field : Field} {v : Value}

theorem isAccepted_of_hasPlaces (filled : action.filled? = some (field, v))
    (isNumber : field.isText = false) (places : field.HasPlaces) : action.IsAccepted := by
  obtain ⟨task, data⟩ := action
  intro e refuses
  cases task with
  | value | attach =>
      cases filled
      exact Field.not_refuses_of_hasPlaces isNumber places e refuses
  | _ => exact refuses

theorem refuses_of_unplaced (filled : action.filled? = some (field, v))
    (isNumber : field.isText = false) (unplaced : ¬field.HasPlaces) (present : v ≠ .missing) :
    action.Refuses (.scaleOutOfRange field.code field.scale) := by
  obtain ⟨task, data⟩ := action
  cases task with
  | unlisted code width =>
      cases filled
      exact absurd (Task.places_unlisted code width) unplaced
  | value | attach =>
      cases filled
      exact .scale isNumber unplaced fun missing => absurd missing present
  | _ => cases filled

theorem forall_isAccepted_or_refuses (actions : List Action) :
    (∀ action ∈ actions, action.IsAccepted) ∨
      ∃ before action behind e, actions = before ++ action :: behind ∧
        (∀ earlier ∈ before, earlier.IsAccepted) ∧ action.Refuses e := by
  induction actions with
  | nil => exact .inl nofun
  | cons action actions ih =>
      by_cases accepted : action.IsAccepted
      · rcases ih with all | ⟨before, refused, behind, e, rfl, accepted', refuses⟩
        · exact .inl (List.forall_mem_cons.2 ⟨accepted, all⟩)
        · exact .inr ⟨action :: before, refused, behind, e, rfl,
            List.forall_mem_cons.2 ⟨accepted, accepted'⟩, refuses⟩
      · obtain ⟨e, refuses⟩ := Classical.not_forall_not.1 accepted
        exact .inr ⟨[], action, actions, e, rfl, nofun, refuses⟩

end

end Action

/-! ## Subsets -/

section

variable {resolver : Resolver} {template : Template} {subset : Subset} {subsets : List Subset}
  {logs : List (List Action)} {x : Bits}

structure ReadsNear (resolver : Resolver) (template : Template) (logs : List (List Action))
    (result : Except Error (List Subset)) : Prop where
  each : ∀ action ∈ logs.flatten, ∀ field v, action.filled? = some (field, v) →
    field.isText = false → field.HasPlaces →
      ∃ action' y, action.Writes y ∧ action'.Reads y ∧ action.Near action'
  decoded : (∀ action ∈ logs.flatten, action.IsAccepted) → ∃ decoded, result = .ok decoded
  near : ∀ decoded, result = .ok decoded →
    List.Forall₂ (fun actions read => ∃ actions' y, Reading resolver template read actions' y ∧
      List.Forall₂ Action.Near actions actions') logs decoded
  refused : ∀ before action behind field v, logs.flatten = before ++ action :: behind →
    (∀ earlier ∈ before, earlier.IsAccepted) → action.filled? = some (field, v) →
    field.isText = false → ¬field.HasPlaces → v ≠ .missing →
      result = .error (.scaleOutOfRange field.code field.scale)

theorem WritingAll.readsNear (fit : Subset.fit subsets.length)
    (writings : WritingAll resolver template subsets logs x) :
    ReadsNear resolver template logs
      (decodeSubsets resolver template (Bits.Writer.empty.push x).finish subsets.length) where
  each action mem field v filled isNumber places := by
    obtain ⟨action', y, written, read, returned⟩ :=
      writings.exists_action mem (Action.isAccepted_of_hasPlaces filled isNumber places)
    exact ⟨action', y, written, read, Action.ComesBack.near ⟨y, written, read, returned⟩⟩
  decoded accepted := by
    obtain ⟨decoded, ok, -⟩ := writings.decodeSubsets_of_accepted fit accepted
    exact ⟨decoded, ok⟩
  near decoded ok := by
    rcases Action.forall_isAccepted_or_refuses logs.flatten with
      accepted | ⟨before, action, behind, e, here, accepted, refuses⟩
    · obtain ⟨decoded', ok', back⟩ := writings.decodeSubsets_of_accepted fit accepted
      cases ok.symm.trans ok'
      refine back.imp ?_
      rintro actions read ⟨actions', y, reading, back⟩
      exact ⟨actions', y, reading, back.imp fun _ _ => Action.ComesBack.near⟩
    · cases ok.symm.trans (writings.decodeSubsets_of_refuses fit here accepted refuses)
  refused before action behind field v here accepted filled isNumber unplaced present :=
    writings.decodeSubsets_of_refuses fit here accepted
      (Action.refuses_of_unplaced filled isNumber unplaced present)

/-- Scaling rounds a number to the nearest in its field, so that what the encoder accepts comes back
within half a unit of the last place, from every field of a scale that a decimal can have. -/
theorem numbers_rounded_once :
    Value.IsScaling Value.scaled ∧
      ∀ {resolver : Resolver} {template : Template} {subsets : List Subset} {data : Octets},
        Subset.fit subsets.length → encodeSubsets resolver template subsets = .ok data →
        ∃ logs x, WritingAll resolver template subsets logs x ∧
          data = (Bits.Writer.empty.push x).finish ∧
          ReadsNear resolver template logs
            (decodeSubsets resolver template data subsets.length) := by
  refine ⟨Value.isScaling_scaled, fun fit encoded => ?_⟩
  obtain ⟨x, written, rfl⟩ := encodeSubsets_ok_iff.1 encoded
  obtain ⟨logs, writings⟩ := exists_writingAll written
  exact ⟨logs, x, writings, rfl, writings.readsNear fit⟩

end

def kelvinTemplate : Template := ⟨#[.element (.element 12 101)]⟩

def kelvins (value : Value) : Subset := ⟨#[.ofValue (.element 12 101) value], #[]⟩

theorem numbers_rounded_once_kelvins :
    encodeSubsets .station kelvinTemplate [kelvins (.decimal 273155 (-3))] = .ok [0x6a, 0xb4] ∧
      ∃ logs x, WritingAll .station kelvinTemplate [kelvins (.decimal 273155 (-3))] logs x ∧
        [0x6a, 0xb4] = (Bits.Writer.empty.push x).finish ∧
        ReadsNear .station kelvinTemplate logs
          (decodeSubsets .station kelvinTemplate [0x6a, 0xb4] 1) := by
  have encoded : encodeSubsets .station kelvinTemplate [kelvins (.decimal 273155 (-3))] =
      .ok [0x6a, 0xb4] := by decide +kernel
  exact ⟨encoded, numbers_rounded_once.2 (show Subset.fit 1 by decide) encoded⟩

def unplacedChain : Chain := [.operator 2 255, .element 12 101]

def unplacedTemplate : Template := ⟨#[.operator (.operator 2 255), .element (.element 12 101)]⟩

/-- The encoder scales further than the exponent of any decimal goes, and the decoder refuses what it
has written. -/
theorem not_always_near :
    Template.expand .station unplacedChain = .ok unplacedTemplate ∧
      ¬∀ (v : Value) (q : ℚ) (data : Octets), v.number? = some q →
        encodeSubsets .station unplacedTemplate [kelvins v] = .ok data →
        ∃ v' q', decodeSubsets .station unplacedTemplate data 1 = .ok [kelvins v'] ∧
          v'.number? = some q' ∧ |q' - q| ≤ 10 ^ (-129 : ℤ) / 2 := by
  refine ⟨by decide +kernel, fun always => ?_⟩
  obtain ⟨v', _, decoded, -⟩ :=
    always (.decimal 100 (-128)) _ [0x03, 0xe8] rfl (by decide +kernel)
  have refused : decodeSubsets .station unplacedTemplate [0x03, 0xe8] 1 =
      .error (.scaleOutOfRange (.element 12 101) 129) := by decide +kernel
  cases refused.symm.trans decoded

end Bufr
