import Bufr.Proofs.Coding.Situation
import Mathlib.Data.List.Perm.Subperm

/-!
A bitmap is open while its entries come in, then its attributes go to the selected variables in turn,
up to the next bitmap. What is still to come of both can be told from the actions ahead.
-/

namespace Bufr

namespace Action

def upcoming : List Action → List Bool
  | ⟨.entry, present⟩ :: rest => present :: upcoming rest
  | ⟨.define .., _⟩ :: rest => upcoming rest
  | ⟨.count .., _⟩ :: rest => upcoming rest
  | ⟨.other, _⟩ :: rest => upcoming rest
  | _ => []

def given : List Action → List Nat
  | [] => []
  | ⟨.attach target .., _⟩ :: rest => target :: given rest
  | ⟨.opens .., _⟩ :: _ => []
  | ⟨.reuses, _⟩ :: _ => []
  | ⟨.cancels, _⟩ :: _ => []
  | _ :: rest => given rest

theorem upcoming_of_settles {action : Action} (settles : action.task.Settles) (rest : List Action) :
    upcoming (action :: rest) = [] := by
  obtain ⟨task, data⟩ := action
  cases task <;> first | rfl | cases settles

end Action

namespace Situation

open Bufr.Action (upcoming given)

variable {resolver : Resolver} {σ σ₁ σ' : Situation} {event : Event} {events : List Event}
  {task : Task} {actions : List Action}

/-! ## Referable variables are in order -/

structure Regular (σ : Situation) : Prop where
  bounded : σ.Bounded
  sorted : σ.referable.toList.Pairwise (· < ·)
  available_le : ∀ available entries, σ.bitmap.phase = .collecting available entries →
    available ≤ σ.referable.size

theorem regular_start : start.Regular := ⟨bounded_start, .nil, nofun⟩

theorem Regular.size_referable_le (regular : σ.Regular) : σ.referable.size ≤ σ.codes.size := by
  have inside : σ.referable.toList ⊆ List.range σ.codes.size := fun i mem =>
    List.mem_range.2 (regular.bounded.referable i (Array.mem_toList_iff.1 mem))
  have nodup : σ.referable.toList.Nodup := regular.sorted.imp Nat.ne_of_lt
  simpa using (nodup.subperm inside).length_le

theorem Regular.withModifiers (regular : σ.Regular) (modifiers : Modifiers) :
    { σ with modifiers }.Regular :=
  ⟨regular.bounded.withModifiers modifiers, regular.sorted, regular.available_le⟩

theorem Regular.withBitmap (regular : σ.Regular) {bitmap : Bitmap}
    (bounded : { σ with bitmap }.Bounded) (closed : bitmap.isCollecting = false) :
    { σ with bitmap }.Regular := by
  refine ⟨bounded, regular.sorted, ?_⟩
  intro available entries phase
  simp only at phase
  rw [Bitmap.isCollecting, phase] at closed
  cases closed

theorem Regular.emit (regular : σ.Regular) (code : Descriptor) : (σ.emit code).Regular := by
  refine ⟨regular.bounded.emit code, ?_, ?_⟩
  · simp only [Situation.emit]
    split
    · rw [Array.toList_push, List.pairwise_append]
      refine ⟨regular.sorted, List.pairwise_singleton _ _, ?_⟩
      intro i mem j last
      cases List.mem_singleton.1 last
      exact regular.bounded.referable i (Array.mem_toList_iff.1 mem)
    · exact regular.sorted
  · intro available entries phase
    have := regular.available_le available entries phase
    simp only [Situation.emit]
    split
    · rw [Array.size_push]
      omega
    · exact this

theorem Regular.settle (regular : σ.Regular) (settled : σ.settle = .ok σ') : σ'.Regular := by
  have bounded := regular.bounded.settle settled
  obtain ⟨bitmap, bitmapOk, rfl⟩ := settle_ok_iff.1 settled
  exact regular.withBitmap bounded (Bitmap.isCollecting_settle bitmapOk)

theorem Regular.nextTarget (regular : σ.Regular) {target : Nat} {targetCode : Descriptor}
    (found : σ.nextTarget = .ok (target, targetCode, σ')) : σ'.Regular := by
  have bounded := regular.bounded.nextTarget found
  obtain ⟨bitmap, bitmapOk, _, rfl⟩ := nextTarget_ok_iff.1 found
  exact regular.withBitmap bounded (Bitmap.isCollecting_nextTarget bitmapOk)

theorem Regular.step (regular : σ.Regular) (step : Step resolver σ event task σ') : σ'.Regular := by
  have bounded := regular.bounded.step step
  cases step with
  | define | entry => exact regular
  | unlisted begins | skip begins | value begins =>
      have settled := regular.settle begins.settled
      exact (settled.withModifiers _).emit _
  | quality begins _ _ _ _ found =>
      have settled := regular.settle begins.settled
      exact (settled.withModifiers _).nextTarget found
  | count => exact regular.emit _
  | modify => exact regular.withModifiers _
  | insert _ settled => exact (regular.settle settled).emit _
  | opens _ settled =>
      refine ⟨bounded, (regular.settle settled).sorted, ?_⟩
      intro available entries phase
      cases phase
      exact Nat.le_refl _
  | marker _ settled _ found =>
      exact ((regular.settle settled).nextTarget found).withModifiers _
  | keep | forget => exact ⟨bounded, regular.sorted, regular.available_le⟩
  | reuse _ kept =>
      obtain ⟨targets, -, rfl⟩ := Bitmap.reuse_ok_iff.1 kept
      exact regular.withBitmap bounded rfl
  | cancel _ settled => exact (regular.settle settled).withBitmap bounded rfl

theorem Regular.record (regular : σ.Regular) (data : task.Data) : (σ.record task data).Regular := by
  have bounded := regular.bounded.record data
  cases task with
  | entry =>
      refine ⟨bounded, regular.sorted, ?_⟩
      intro available entries phase
      simp only [Situation.record, Bitmap.pushEntry] at phase
      split at phase
      next collecting =>
        cases phase
        exact regular.available_le _ _ collecting
      next => exact regular.available_le _ _ phase
  | define => exact regular.withModifiers _
  | _ => exact regular

/-! ## Attributes go to their targets in turn -/

def window (referable : Array Nat) (available count : Nat) : List Nat :=
  (referable.extract (available - count) available).toList

def selection (σ : Situation) (actions : List Action) : List Nat × Nat :=
  match σ.bitmap.phase with
  | .idle => ([], 0)
  | .collecting available entries =>
    let entries := entries.toList ++ upcoming actions
    (Bitmap.pick (window σ.referable available entries.length) entries, 0)
  | .selected targets used => (targets.toList, used)

theorem settle_collecting {available : Nat} {entries : Array Bool}
    (phase : σ.bitmap.phase = .collecting available entries) :
    σ.settle = .ok σ' ↔ entries.size ≤ available ∧
      let targets := (Bitmap.pick (window σ.referable available entries.size) entries.toList).toArray
      σ' = { σ with bitmap := { σ.bitmap with
        phase := .selected targets 0
        keepNext := false
        kept := if σ.bitmap.keepNext then some targets else σ.bitmap.kept } } := by
  simp only [settle_ok_iff, Bitmap.settle_of_collecting phase, and_assoc, exists_and_left,
    exists_eq_left]
  rfl

theorem settle_idle (closed : σ.bitmap.isCollecting = false) : σ.settle = .ok σ' ↔ σ' = σ := by
  simp only [settle_ok_iff, Bitmap.settle_of_closed closed, Except.ok.injEq, exists_eq_left']

theorem selection_settle (settled : σ.settle = .ok σ') (complete : upcoming actions = []) :
    σ'.selection actions = σ.selection actions := by
  unfold selection
  cases phase : σ.bitmap.phase with
  | collecting available entries =>
      obtain ⟨_, rfl⟩ := (settle_collecting phase).1 settled
      simp only [complete, List.append_nil, Array.length_toList]
  | idle =>
      have closed : σ.bitmap.isCollecting = false := by rw [Bitmap.isCollecting, phase]
      rw [(settle_idle closed).1 settled, phase]
  | selected targets used =>
      have closed : σ.bitmap.isCollecting = false := by rw [Bitmap.isCollecting, phase]
      rw [(settle_idle closed).1 settled, phase]

def InTurn (selection : List Nat × Nat) (targets : List Nat) : Prop :=
  ∀ j < targets.length, targets[j]? = selection.1[(selection.2 + j) % selection.1.length]?

theorem inTurn_nil (selection : List Nat × Nat) : InTurn selection [] := nofun

theorem InTurn.cons {targets : List Nat} {used target : Nat} {more : List Nat}
    (first : targets[used % targets.length]? = some target) (rest : InTurn (targets, used + 1) more) :
    InTurn (targets, used) (target :: more) := by
  intro j inside
  cases j with
  | zero => exact first.symm
  | succ j =>
      have := rest j (by simpa using inside)
      rwa [List.getElem?_cons_succ, Nat.add_right_comm] at *

theorem window_push {referable : Array Nat} {available : Nat} (inside : available ≤ referable.size)
    (i count : Nat) : window (referable.push i) available count = window referable available count := by
  unfold window
  rw [Array.extract_push_of_le inside]

theorem selection_emit (regular : σ.Regular) (code : Descriptor) (actions : List Action) :
    (σ.emit code).selection actions = σ.selection actions := by
  unfold selection
  simp only [emit]
  cases phase : σ.bitmap.phase with
  | collecting available entries =>
      simp only
      split
      · rw [window_push (regular.available_le available entries phase)]
      · rfl
  | idle | selected => rfl

theorem selection_closed (closed : σ.bitmap.isCollecting = false) (actions actions' : List Action) :
    σ.selection actions = σ.selection actions' := by
  unfold selection
  unfold Bitmap.isCollecting at closed
  cases phase : σ.bitmap.phase with
  | collecting =>
      rw [phase] at closed
      cases closed
  | idle | selected => rfl

theorem inTurn_attach {σ₂ σ₃ : Situation} {target : Nat} {targetCode : Descriptor}
    {actions' : List Action} {more : List Nat} (settled : σ.settle = .ok σ₁)
    (complete : upcoming actions' = []) (found : σ₂.nextTarget = .ok (target, targetCode, σ₃))
    (before : σ₂.bitmap = σ₁.bitmap) (behind : σ'.bitmap = σ₃.bitmap)
    (rest : InTurn (σ'.selection actions) more) : InTurn (σ.selection actions') (target :: more) := by
  obtain ⟨bitmap, bitmapOk, _, rfl⟩ := nextTarget_ok_iff.1 found
  obtain ⟨targets, used, phase, here, rfl⟩ := Bitmap.nextTarget_ok_iff.1 bitmapOk
  have first : σ.selection actions' = (targets.toList, used) := by
    rw [← selection_settle settled complete, selection, ← before, phase]
  have next : σ'.selection actions = (targets.toList, used + 1) := by
    rw [selection, behind]
  rw [next] at rest
  rw [first]
  exact rest.cons (by rwa [Array.length_toList, Array.getElem?_toList])

theorem inTurn_given (log : Log resolver σ events actions σ') (regular : σ.Regular) :
    InTurn (σ.selection actions) (given actions) := by
  induction log with
  | nil => exact inTurn_nil _
  | @cons σ σ₁ σ' event events task actions data taskOk log ih =>
      have step := step_of_task taskOk
      have rest := ih ((regular.step step).record data)
      have passed {σ₂ : Situation} (settles : task.Settles) (settled : σ.settle = .ok σ₂)
          (same : (σ₁.record task data).selection actions = σ₂.selection actions) :
          InTurn (σ.selection (⟨task, data⟩ :: actions)) (given actions) := by
        rw [← selection_settle settled (Action.upcoming_of_settles settles actions),
          selection_closed (isCollecting_of_settle settled) _ actions, ← same]
        exact rest
      cases step with
      | define => exact rest
      | entry undefined collecting =>
          unfold Bitmap.isCollecting at collecting
          split at collecting
          next available entries phase =>
            have same : (σ.record .entry data).selection actions =
                σ.selection (⟨.entry, data⟩ :: actions) := by
              simp only [selection, Situation.record, Bitmap.pushEntry, phase, upcoming,
                Array.toList_push, List.append_assoc, List.singleton_append]
            rw [← same]
            exact rest
          · cases collecting
      | unlisted begins | skip begins | value begins =>
          exact passed trivial begins.settled (selection_emit (regular.settle begins.settled) _ _)
      | insert _ settled => exact passed trivial settled (selection_emit (regular.settle settled) _ _)
      | count =>
          have same := selection_emit regular
          simp only [Situation.record] at rest
          rw [selection_emit regular] at rest
          exact rest
      | modify | keep | forget => exact rest
      | quality begins _ _ _ _ found =>
          exact inTurn_attach begins.settled rfl found rfl rfl rest
      | marker _ settled _ found => exact inTurn_attach settled rfl found rfl rfl rest
      | opens | reuse | cancel => exact inTurn_nil _

/-! ## The first targets in place of all

When only some of the targets are given an attribute, they are the first ones, and a bitmap that
selects just these gives the same attributes to the same variables.
-/

structure Covers (targets fewer given : List Nat) : Prop where
  nodup : targets.Nodup
  prefix_ : fewer <+: targets
  mem : ∀ i ∈ given, i ∈ fewer

/-- From so many attributes on, both selections give the next ones to the same variables. -/
def Agree (targets fewer : List Nat) (used count : Nat) : Prop :=
  ∀ j < count, fewer[(used + j) % fewer.length]? = targets[(used + j) % targets.length]?

theorem Covers.agree {targets fewer known given : List Nat} (covers : Covers targets fewer known)
    (turn : InTurn (targets, 0) given) (again : ∀ i ∈ given, i ∈ known) :
    Agree targets fewer 0 given.length := by
  obtain ⟨rest, rfl⟩ := covers.prefix_
  have mem (j : Nat) (inside : j < given.length) : ∃ i ∈ fewer,
      (fewer ++ rest)[j % (fewer ++ rest).length]? = some i := by
    have here := turn j inside
    rw [List.getElem?_eq_getElem inside, Nat.zero_add] at here
    exact ⟨_, covers.mem _ (again _ (List.getElem_mem inside)), here.symm⟩
  cases rest with
  | nil => simp [Agree]
  | cons next rest =>
      -- the first target left out would be the next to be given an attribute
      have short : given.length ≤ fewer.length := by
        by_contra long
        obtain ⟨i, known, here⟩ := mem fewer.length (by omega)
        rw [Nat.mod_eq_of_lt (by simp), List.getElem?_append_right (Nat.le_refl _), Nat.sub_self,
          List.getElem?_cons_zero] at here
        cases here
        exact (List.nodup_append.1 covers.nodup).2.2 _ known _ List.mem_cons_self rfl
      intro j inside
      have inFewer : j < fewer.length := by omega
      rw [Nat.zero_add, Nat.mod_eq_of_lt inFewer, Nat.mod_eq_of_lt (by simp; omega),
        List.getElem?_append_left inFewer]

theorem filter_prefix {targets given : List Nat} (nodup : targets.Nodup)
    (turn : InTurn (targets, 0) given) : targets.filter (· ∈ given) <+: targets := by
  have here (j : Nat) (inside : j < given.length) (first : j < targets.length) :
      given[j] = targets[j] := by
    have := turn j inside
    rw [Nat.zero_add, Nat.mod_eq_of_lt first, List.getElem?_eq_getElem inside,
      List.getElem?_eq_getElem first] at this
    exact Option.some.inj this
  let count := min given.length targets.length
  have front : (targets.take count).filter (· ∈ given) = targets.take count := by
    refine List.filter_eq_self.2 fun i mem => decide_eq_true ?_
    obtain ⟨j, inside, rfl⟩ := List.mem_take_iff_getElem.1 mem
    have first : j < given.length := by omega
    rw [← here j first (by omega)]
    exact List.getElem_mem first
  have back : (targets.drop count).filter (· ∈ given) = [] := by
    refine List.filter_eq_nil_iff.2 fun i mem taken => ?_
    have short : given.length < targets.length := by
      have := List.length_pos_of_mem mem
      rw [List.length_drop] at this
      omega
    obtain ⟨j, inside, rfl⟩ := List.mem_iff_getElem.1 (of_decide_eq_true taken)
    rw [here j inside (by omega)] at mem
    have inFront : targets[j] ∈ targets.take count :=
      List.mem_take_iff_getElem.2 ⟨j, by omega, rfl⟩
    exact List.disjoint_take_drop nodup (Nat.le_refl count) inFront mem
  rw [← List.take_append_drop count targets, List.filter_append, front, back, List.append_nil]
  exact List.prefix_append _ _

theorem filter_pick {candidates given : List Nat} {entries : List Bool} (nodup : candidates.Nodup)
    (long : entries.length = candidates.length)
    (mem : ∀ i ∈ given, i ∈ candidates → i ∈ Bitmap.pick candidates entries) :
    candidates.filter (· ∈ given) = (Bitmap.pick candidates entries).filter (· ∈ given) := by
  induction candidates generalizing entries with
  | nil => rfl
  | cons i candidates ih =>
      obtain ⟨fresh, nodup⟩ := List.nodup_cons.1 nodup
      cases entries with
      | nil => cases long
      | cons present entries =>
          rw [Bitmap.pick_cons] at mem ⊢
          have rest := ih nodup (Nat.succ.inj long) fun j taken inside => by
            have := mem j taken (List.mem_cons_of_mem i inside)
            split at this
            · rcases List.mem_cons.1 this with rfl | this
              · exact absurd inside fresh
              · exact this
            · exact this
          split
          · rw [List.filter_cons, List.filter_cons, rest]
          next absent =>
            have left : i ∉ given := fun taken => by
              have := mem i taken List.mem_cons_self
              rw [if_neg absent] at this
              exact fresh ((Bitmap.sublist_pick candidates entries).mem this)
            rw [List.filter_cons, if_neg (by simpa using left), rest]

theorem covers_pick {candidates given : List Nat} {entries : List Bool} (nodup : candidates.Nodup)
    (long : entries.length = candidates.length)
    (turn : InTurn (Bitmap.pick candidates entries, 0) given) :
    Covers (Bitmap.pick candidates entries)
      (Bitmap.pick candidates (candidates.map (decide <| · ∈ given))) given := by
  have selected (i : Nat) (taken : i ∈ given) : i ∈ Bitmap.pick candidates entries := by
    obtain ⟨j, inside, rfl⟩ := List.mem_iff_getElem.1 taken
    have here := turn j inside
    rw [List.getElem?_eq_getElem inside] at here
    exact List.mem_of_getElem? here.symm
  have nodupTargets := nodup.sublist (Bitmap.sublist_pick candidates entries)
  rw [Bitmap.pick_map, filter_pick nodup long fun i taken _ => selected i taken]
  exact ⟨nodupTargets, filter_prefix nodupTargets turn, fun i taken =>
    List.mem_filter.2 ⟨selected i taken, decide_eq_true taken⟩⟩

theorem nodup_window (regular : σ.Regular) (available count : Nat) :
    (window σ.referable available count).Nodup := by
  have nodup : σ.referable.toList.Nodup := regular.sorted.imp Nat.ne_of_lt
  rw [window, Array.toList_extract, List.extract_eq_take_drop]
  exact nodup.sublist ((List.take_sublist _ _).trans (List.drop_sublist _ _))

theorem length_window {referable : Array Nat} {available count : Nat} (enough : count ≤ available)
    (inside : available ≤ referable.size) : (window referable available count).length = count := by
  rw [window, Array.length_toList, Array.size_extract]
  omega

end Situation

end Bufr
