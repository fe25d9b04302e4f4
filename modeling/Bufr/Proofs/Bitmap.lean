import Bufr.Bitmap
import Bufr.Proofs.Outcome

/-!
Bitmaps by themselves: what they pick, what ends them, and which variables they refer to. Whatever
holds of the referable variables behind which a bitmap is opened holds of those it refers to.
-/

namespace Bufr

theorem BitmapKind.ofClass?_eq_some {x : UInt8} {kind : BitmapKind}
    (known : ofClass? x = some kind) : x = kind.operatorClass := by
  unfold ofClass? at known
  split at known <;> cases known <;> exact UInt8.toNat_inj.1 ‹_›

namespace Bitmap

variable {bitmap bitmap' : Bitmap} {available target : Nat} {referable : Array Nat}
  {entries : Array Bool}

/-! ## Picking -/

theorem firstCandidate_ok_iff {entries first : Nat} :
    firstCandidate available entries = .ok first ↔ first + entries = available := by
  unfold firstCandidate
  split
  next long => simp only [reduceCtorEq, false_iff]; omega
  next => simp only [Except.ok.injEq]; omega

theorem pick_cons (i : Nat) (candidates : List Nat) (present : Bool) (entries : List Bool) :
    pick (i :: candidates) (present :: entries) =
      if present then i :: pick candidates entries else pick candidates entries := by
  cases present <;> rfl

theorem sublist_pick (candidates : List Nat) (entries : List Bool) :
    (pick candidates entries).Sublist candidates := by
  induction candidates generalizing entries with
  | nil => exact List.nil_sublist []
  | cons i candidates ih =>
      cases entries with
      | nil => exact List.nil_sublist _
      | cons present entries =>
          rw [pick_cons]
          split
          · exact (ih entries).cons_cons i
          · exact (ih entries).cons i

theorem pick_map (candidates : List Nat) (p : Nat → Bool) :
    pick candidates (candidates.map p) = candidates.filter p := by
  induction candidates with
  | nil => rfl
  | cons i candidates ih => rw [List.map_cons, pick_cons, List.filter_cons, ih]

/-! ## Open bitmaps -/

theorem pushEntry_collecting (present : Bool) (collecting : bitmap.isCollecting) :
    (bitmap.pushEntry present).isCollecting ∧
      (bitmap.pushEntry present).entryCount = bitmap.entryCount + 1 := by
  unfold isCollecting at collecting
  split at collecting
  next phase => simp [pushEntry, isCollecting, entryCount, phase]
  · cases collecting

theorem settle_of_closed (closed : bitmap.isCollecting = false) (referable : Array Nat) :
    bitmap.settle referable = .ok bitmap := by
  unfold settle
  split
  next phase =>
    rw [isCollecting, phase] at closed
    cases closed
  · rfl

theorem settle_of_collecting (phase : bitmap.phase = .collecting available entries) :
    bitmap.settle referable = .ok bitmap' ↔ entries.size ≤ available ∧
      let targets := (pick (referable.extract (available - entries.size) available).toList
        entries.toList).toArray
      bitmap' = { bitmap with
        phase := .selected targets 0
        keepNext := false
        kept := if bitmap.keepNext then some targets else bitmap.kept } := by
  unfold settle firstCandidate
  simp only [phase]
  by_cases long : available < entries.size
  · simp only [if_pos long, reduceCtorEq, false_iff, not_and]
    intro short
    omega
  · have last : available - entries.size + entries.size = available := by omega
    simp only [if_neg long, Except.ok.injEq, last, Nat.le_of_not_lt long, true_and]
    exact eq_comm

theorem isCollecting_settle (settled : bitmap.settle referable = .ok bitmap') :
    bitmap'.isCollecting = false := by
  unfold settle at settled
  split at settled
  · split at settled
    · cases settled
    · cases settled
      rfl
  next other =>
    cases settled
    unfold isCollecting
    split
    next phase => exact absurd phase (other _ _)
    · rfl

/-! ## Targets -/

theorem nextTarget_ok_iff :
    bitmap.nextTarget = .ok (target, bitmap') ↔
      ∃ targets used, bitmap.phase = .selected targets used ∧
        targets[used % targets.size]? = some target ∧
        bitmap' = { bitmap with phase := .selected targets (used + 1) } := by
  unfold nextTarget
  constructor
  · intro found
    split at found
    next targets used phase =>
      split at found
      next target' here =>
        cases found
        exact ⟨targets, used, phase, here, rfl⟩
      · cases found
    · cases found
  · rintro ⟨targets, used, phase, here, rfl⟩
    simp only [phase, here]

theorem isCollecting_nextTarget (found : bitmap.nextTarget = .ok (target, bitmap')) :
    bitmap'.isCollecting = false := by
  obtain ⟨targets, used, _, _, rfl⟩ := nextTarget_ok_iff.1 found
  rfl

theorem reuse_ok_iff : bitmap.reuse = .ok bitmap' ↔
    ∃ targets, bitmap.kept = some targets ∧
      bitmap' = { bitmap with phase := .selected targets 0 } := by
  unfold reuse
  cases bitmap.kept with
  | none => simp
  | some targets => simp [eq_comm]

/-- The variables that the bitmap selects, now or when it is reused, are of one kind. -/
structure RefersTo (P : Nat → Prop) (bitmap : Bitmap) : Prop where
  selected : ∀ targets used, bitmap.phase = .selected targets used → ∀ i ∈ targets, P i
  kept : ∀ targets, bitmap.kept = some targets → ∀ i ∈ targets, P i

namespace RefersTo

variable {P : Nat → Prop}

theorem settle (refers : bitmap.RefersTo P) (known : ∀ i ∈ referable, P i)
    (settled : bitmap.settle referable = .ok bitmap') : bitmap'.RefersTo P := by
  cases phase : bitmap.phase with
  | idle | selected =>
      have closed : bitmap.isCollecting = false := by rw [isCollecting, phase]
      cases (settle_of_closed closed referable).symm.trans settled
      exact refers
  | collecting available entries =>
      obtain ⟨-, rfl⟩ := (settle_of_collecting phase).1 settled
      have picked : ∀ i ∈ (pick (referable.extract (available - entries.size) available).toList
          entries.toList).toArray, P i := by
        intro i mem
        have inside := (sublist_pick _ _).mem (List.mem_toArray.1 mem)
        rw [Array.toList_extract] at inside
        exact known i (Array.mem_toList_iff.1 (List.mem_of_mem_drop (List.mem_of_mem_take inside)))
      refine ⟨?_, fun targets kept => ?_⟩
      · rintro _ _ ⟨⟩
        exact picked
      · simp only at kept
        split at kept
        · cases kept
          exact picked
        · exact refers.kept targets kept

theorem nextTarget (refers : bitmap.RefersTo P)
    (found : bitmap.nextTarget = .ok (target, bitmap')) : bitmap'.RefersTo P := by
  obtain ⟨targets, used, phase, -, rfl⟩ := nextTarget_ok_iff.1 found
  refine ⟨?_, refers.kept⟩
  rintro _ _ ⟨⟩
  exact refers.selected targets used phase

theorem of_target (refers : bitmap.RefersTo P)
    (found : bitmap.nextTarget = .ok (target, bitmap')) : P target := by
  obtain ⟨targets, used, phase, here, -⟩ := nextTarget_ok_iff.1 found
  exact refers.selected targets used phase target (Array.mem_of_getElem? here)

theorem reuse (refers : bitmap.RefersTo P) (reused : bitmap.reuse = .ok bitmap') :
    bitmap'.RefersTo P := by
  obtain ⟨targets, kept, rfl⟩ := reuse_ok_iff.1 reused
  refine ⟨?_, refers.kept⟩
  rintro _ _ ⟨⟩
  exact refers.kept targets kept

theorem pushEntry (refers : bitmap.RefersTo P) (present : Bool) :
    (bitmap.pushEntry present).RefersTo P := by
  unfold Bitmap.pushEntry
  split
  · exact ⟨nofun, refers.kept⟩
  · exact refers

end RefersTo

end Bitmap

end Bufr
