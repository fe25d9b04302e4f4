import Bufr.Proofs.Coding.Blocks
import Bufr.Proofs.Coding.ReadBack

/-!
Writing a subset that was read. The encoder makes up entries of its own for every bitmap, so its
situation differs from that of the decoder in the targets, but it resembles it: the attributes that
are still to come go to the same variables.
-/

namespace Bufr

open Situation (Log Covers Agree InTurn window)
open Bufr.Action (upcoming given)

inductive Bitmap.Phase.Resembles (referable : Array Nat) (planned : List Bool)
    (actions : List Action) : Bitmap.Phase → Bitmap.Phase → Prop where
  | idle (closed : planned = []) : Resembles referable planned actions .idle .idle
  | collecting {available entries entries'} (size : entries'.size = entries.size)
      (long : planned.length = (upcoming actions).length)
      (covers : Covers
        (pick (window referable available (entries.size + planned.length))
          (entries.toList ++ upcoming actions))
        (pick (window referable available (entries.size + planned.length))
          (entries'.toList ++ planned))
        (given actions)) :
      Resembles referable planned actions (.collecting available entries)
        (.collecting available entries')
  | selected {targets targets' used} (closed : planned = [])
      (agree : Agree targets.toList targets'.toList used (given actions).length) :
      Resembles referable planned actions (.selected targets used) (.selected targets' used)

namespace Situation

structure Resembles (kept : List Nat) (planned : List Bool) (actions : List Action)
    (σ σ' : Situation) : Prop where
  modifiers : σ'.modifiers = σ.modifiers
  codes : σ'.codes = σ.codes
  referable : σ'.referable = σ.referable
  kind : σ'.bitmap.kind? = σ.bitmap.kind?
  keepNext : σ'.bitmap.keepNext = σ.bitmap.keepNext
  kept : ∀ targets, σ.bitmap.kept = some targets →
    ∃ targets', σ'.bitmap.kept = some targets' ∧ Covers targets.toList targets'.toList kept
  phase : Bitmap.Phase.Resembles σ.referable planned actions σ.bitmap.phase σ'.bitmap.phase

namespace Resembles

variable {kept : List Nat} {planned : List Bool} {actions actions' : List Action}
  {σ σ' σ₁ : Situation}

theorem withModifiers (same : Resembles kept planned actions σ σ') (modifiers : Modifiers) :
    Resembles kept planned actions { σ with modifiers } { σ' with modifiers } :=
  ⟨rfl, same.codes, same.referable, same.kind, same.keepNext, same.kept, same.phase⟩

theorem isCollecting (same : Resembles kept planned actions σ σ') :
    σ'.bitmap.isCollecting = σ.bitmap.isCollecting := by
  have phase := same.phase
  unfold Bitmap.isCollecting
  generalize σ.bitmap.phase = p, σ'.bitmap.phase = p' at phase
  cases phase <;> rfl

theorem isSelected (same : Resembles kept planned actions σ σ') :
    σ'.bitmap.isSelected = σ.bitmap.isSelected := by
  have phase := same.phase
  unfold Bitmap.isSelected
  generalize σ.bitmap.phase = p, σ'.bitmap.phase = p' at phase
  cases phase <;> rfl

theorem takesElement (same : Resembles kept planned actions σ σ') (code : Descriptor) :
    σ'.bitmap.takesElement code = σ.bitmap.takesElement code := by
  rw [Bitmap.takesElement, Bitmap.takesElement, same.kind, same.isSelected]

theorem ahead (same : Resembles kept planned actions σ σ')
    (closed : σ.bitmap.isCollecting = false) (fewer : (given actions').length ≤ (given actions).length) :
    Resembles kept planned actions' σ σ' := by
  refine ⟨same.modifiers, same.codes, same.referable, same.kind, same.keepNext, same.kept, ?_⟩
  have phase := same.phase
  unfold Bitmap.isCollecting at closed
  generalize σ.bitmap.phase = p, σ'.bitmap.phase = p' at phase closed
  cases phase with
  | idle empty => exact .idle empty
  | collecting => cases closed
  | selected empty agree => exact .selected empty fun j inside => agree j (by omega)

theorem pass (same : Resembles kept planned actions' σ σ') (entries : upcoming actions' = upcoming actions)
    (attributes : given actions' = given actions) : Resembles kept planned actions σ σ' := by
  refine ⟨same.modifiers, same.codes, same.referable, same.kind, same.keepNext, same.kept, ?_⟩
  have phase := same.phase
  generalize σ.bitmap.phase = p, σ'.bitmap.phase = p' at phase
  cases phase with
  | idle empty => exact .idle empty
  | collecting size long covers =>
      rw [entries] at long covers
      rw [attributes] at covers
      exact .collecting size long covers
  | selected empty agree =>
      rw [attributes] at agree
      exact .selected empty agree

theorem emit (same : Resembles kept planned actions σ σ') (regular : σ.Regular)
    (code : Descriptor) : Resembles kept planned actions (σ.emit code) (σ'.emit code) := by
  refine ⟨same.modifiers, ?_, ?_, same.kind, same.keepNext, same.kept, ?_⟩
  · simp only [Situation.emit, same.codes]
  · simp only [Situation.emit, same.codes, same.referable]
  · have phase := same.phase
    have pushed (available count : Nat) (inside : available ≤ σ.referable.size) :
        window (σ.emit code).referable available count = window σ.referable available count := by
      simp only [Situation.emit]
      split
      · exact window_push inside _ _
      · rfl
    have inside := regular.available_le
    show Bitmap.Phase.Resembles _ _ _ σ.bitmap.phase σ'.bitmap.phase
    generalize σ.bitmap.phase = p, σ'.bitmap.phase = p' at phase inside
    cases phase with
    | idle empty => exact .idle empty
    | collecting size long covers =>
        refine .collecting size long ?_
        rwa [pushed _ _ (inside _ _ rfl)]
    | selected empty agree => exact .selected empty agree

theorem settle (same : Resembles kept planned actions σ σ') (complete : upcoming actions = [])
    (turn : InTurn (σ.selection actions) (given actions)) (settled : σ.settle = .ok σ₁) :
    planned = [] ∧ ∃ σ₁', σ'.settle = .ok σ₁' ∧
      Resembles (if σ.bitmap.isCollecting ∧ σ.bitmap.keepNext then given actions else kept) []
        actions σ₁ σ₁' := by
  have collecting := same.isCollecting
  cases open_ : σ.bitmap.isCollecting with
  | false =>
      rw [open_] at collecting
      rw [(settle_idle open_).1 settled, if_neg (by simp)]
      have phase := same.phase
      have empty : planned = [] := by
        unfold Bitmap.isCollecting at open_
        generalize σ.bitmap.phase = p, σ'.bitmap.phase = p' at phase open_
        cases phase with
        | idle empty => exact empty
        | collecting => cases open_
        | selected empty => exact empty
      subst empty
      exact ⟨rfl, σ', (settle_idle collecting).2 rfl, same⟩
  | true =>
      have phase := same.phase
      have first := turn
      unfold Bitmap.isCollecting at open_
      unfold selection at first
      -- Both bitmaps select their targets here: the decoder from the entries it read, the encoder from
      -- those it made up. They agree on what is given from now on.
      generalize here : σ.bitmap.phase = p, here' : σ'.bitmap.phase = p' at phase open_ first
      cases phase with
      | idle | selected => cases open_
      | @collecting available entries entries' size long covers =>
          obtain ⟨enough, rfl⟩ := (settle_collecting here).1 settled
          have empty : planned = [] := List.length_eq_zero_iff.1 (by rw [long, complete]; rfl)
          subst empty
          simp only [complete, List.append_nil, List.length_nil, Nat.add_zero, Array.length_toList]
            at covers first
          refine ⟨rfl, _, (settle_collecting here').2 ⟨by omega, rfl⟩, same.modifiers, same.codes,
            same.referable, same.kind, rfl, ?_, ?_⟩
          · simp only [same.keepNext, same.referable, size, true_and]
            intro targets kept
            split at kept
            next keeps =>
              cases kept
              rw [if_pos keeps, if_pos keeps]
              exact ⟨_, rfl, covers⟩
            next drops =>
              rw [if_neg drops, if_neg drops]
              exact same.kept targets kept
          · refine .selected rfl ?_
            simp only [same.referable, size]
            exact covers.agree first fun i mem => mem

theorem nextTarget {target : Nat} {targetCode : Descriptor}
    (same : Resembles kept planned actions σ σ')
    (more : (given actions).length = (given actions').length + 1)
    (found : σ.nextTarget = .ok (target, targetCode, σ₁)) :
    ∃ σ₁', σ'.nextTarget = .ok (target, targetCode, σ₁') ∧ Resembles kept planned actions' σ₁ σ₁' := by
  obtain ⟨bitmap, bitmapOk, known, rfl⟩ := nextTarget_ok_iff.1 found
  obtain ⟨targets, used, here, first, rfl⟩ := Bitmap.nextTarget_ok_iff.1 bitmapOk
  have phase := same.phase
  generalize here' : σ'.bitmap.phase = p' at phase
  rw [here] at phase
  cases phase with
  | @selected _ targets' _ empty agree =>
      have first' : targets'[used % targets'.size]? = some target := by
        have := agree 0 (by omega)
        rw [Nat.add_zero, Array.length_toList, Array.length_toList, Array.getElem?_toList,
          Array.getElem?_toList] at this
        rw [this, first]
      have bitmapOk' := Bitmap.nextTarget_ok_iff.2 ⟨targets', used, here', first', rfl⟩
      refine ⟨_, nextTarget_ok_iff.2 ⟨_, bitmapOk', same.codes ▸ known, rfl⟩, same.modifiers,
        same.codes, same.referable, same.kind, same.keepNext, same.kept, .selected empty ?_⟩
      intro j inside
      have := agree (j + 1) (by omega)
      rwa [Nat.add_comm j, ← Nat.add_assoc] at this

end Resembles

end Situation

/-! ## The subset supplies the data -/

/-- The data that a subset gives in place of those read: entries are made up, and of several
attributes of one variable under one code the last is left. -/
def Task.Redone (subset : Subset) : (task : Task) → (read redone : task.Data) → Prop
  | entry, _, _ => True
  | attach target code _ _, _, redone => redone = subset.attributeData target code
  | _, read, redone => redone = read

inductive Action.Redone (subset : Subset) : Action → Action → Prop where
  | mk {task : Task} {read redone : task.Data} (again : task.Redone subset read redone) :
      Redone subset ⟨task, read⟩ ⟨task, redone⟩

namespace Subset

variable {resolver : Resolver} {subset : Subset} {taken defined : Nat} {actions : List Action}

structure Stores (resolver : Resolver) (subset : Subset) (taken defined : Nat)
    (actions : List Action) : Prop where
  taken_le : taken ≤ subset.size
  foresees : subset.Foresees resolver taken actions
  holds : subset.Holds taken actions
  references : subset.references.toList.drop defined = actions.filterMap Action.reference?
  words : ∀ action ∈ actions, action.task.IsWord
  attached : ∀ target code field width data, ⟨.attach target code field width, data⟩ ∈ actions →
    ∃ v a, subset.vars[target]? = some v ∧ v.attached? code = some a

theorem Stores.tail {action : Action} (stores : subset.Stores resolver taken defined (action :: actions)) :
    subset.Stores resolver (taken + action.fresh?.toList.length)
      (defined + action.reference?.toList.length) actions := by
  refine ⟨?_, stores.foresees.2, stores.holds.tail, ?_,
    fun other mem => stores.words other (List.mem_cons_of_mem _ mem),
    fun target code field width data mem =>
      stores.attached target code field width data (List.mem_cons_of_mem _ mem)⟩
  · cases fresh : action.fresh? with
    | none => exact stores.taken_le
    | some u =>
        obtain ⟨⟨v, _, here, _⟩, _⟩ := stores.holds.of_fresh fresh
        exact (Array.getElem?_eq_some_iff.1 here).1
  · have references := stores.references
    rw [List.filterMap_cons] at references
    rw [← List.drop_drop, references]
    cases action.reference? <;> rfl

theorem mapM_variableAt {candidates : Array Nat} (inside : ∀ i ∈ candidates, i < subset.size) :
    ∃ vs, candidates.mapM (Encoder.variableAt subset) = .ok vs ∧
      List.Forall₂ (fun i v => subset.vars[i]? = some v) candidates.toList vs.toList := by
  obtain ⟨candidates⟩ := candidates
  simp only [List.mem_toArray] at inside
  rw [List.mapM_toArray]
  induction candidates with
  | nil => exact ⟨#[], rfl, .nil⟩
  | cons i candidates ih =>
      obtain ⟨first, others⟩ := List.forall_mem_cons.1 inside
      obtain ⟨vs, same, found⟩ := ih others
      obtain ⟨vs', listSame, rfl⟩ := map_eq_ok_iff.1 same
      have here : subset.vars[i]? = some subset.vars[i] := Array.getElem?_eq_getElem first
      refine ⟨(subset.vars[i] :: vs').toArray, ?_, .cons here found⟩
      rw [List.mapM_cons, Encoder.variableAt_ok_iff.2 here, ok_bind, listSame]
      rfl

theorem marks_eq (kind : BitmapKind) (v : Variable) {codes codes' : List Descriptor}
    (same : codes = codes') :
    kind.marks v (match kind with | .quality => codes | _ => []) = kind.marks v codes' := by
  cases kind with
  | quality => rw [same]
  | substituted | firstOrder | difference | replaced => rfl

/-- The encoder makes up a bitmap that selects the variables which are given an attribute. -/
theorem plan_of_tells {kind : BitmapKind} {walk : Walk} {referable : Array Nat}
    (enough : (upcoming actions).length ≤ referable.size)
    (foreseen : Foreseen resolver walk.template subset walk.position taken
      (walk.template.ops.toList.drop walk.position) actions)
    (room : referable.size ≤ subset.size) (inside : ∀ i ∈ referable, i < subset.size)
    (tells : subset.Tells kind walk referable (upcoming actions).length (given actions)) :
    ∃ entries, Encoder.plan resolver subset walk kind referable taken = .ok entries ∧
      entries.toList =
        (window referable referable.size (upcoming actions).length).map (decide <| · ∈ given actions) := by
  obtain ⟨behind, counts, codes⟩ := foreseen
  have counts := counts 0
  have short : (upcoming actions).length < Lookahead.wrapsAt subset :=
    Lookahead.lt_wrapsAt_of_le (enough.trans room)
  rw [Nat.zero_mod, Nat.zero_add, Nat.mod_eq_of_lt short] at counts
  obtain ⟨vs, mapped, found⟩ := @mapM_variableAt subset
    (referable.extract (referable.size - (upcoming actions).length) referable.size) fun i mem => by
      rw [← Array.mem_toList_iff, Array.toList_extract] at mem
      exact inside i (Array.mem_toList_iff.1 (List.mem_of_mem_drop (List.mem_of_mem_take mem)))
  have first : Bitmap.firstCandidate referable.size (upcoming actions).length =
      .ok (referable.size - (upcoming actions).length) := if_neg (Nat.not_lt.2 enough)
  refine ⟨_, bind_eq_ok.2 ⟨_, counts, bind_eq_ok.2 ⟨_, first, bind_eq_ok.2 ⟨vs, mapped, rfl⟩⟩⟩, ?_⟩
  rw [Array.toList_map]
  have each := tells
  unfold Tells at each
  change List.Forall₂ _ (window referable referable.size (upcoming actions).length) _ at found
  generalize window referable referable.size (upcoming actions).length = candidates at each found
  generalize vs.toList = us at found
  induction found with
  | nil => rfl
  | cons here _ ih =>
      rw [List.map_cons, List.map_cons, ih fun i mem => each i (List.mem_cons_of_mem _ mem)]
      congr 1
      exact (marks_eq kind _ codes).trans
        (Bool.eq_iff_iff.2 ((each _ List.mem_cons_self _ here).trans decide_eq_true_iff.symm))

end Subset

def Supply.behind (supply : Supply) (action : Action) : Supply :=
  ⟨supply.taken + action.fresh?.toList.length, supply.defined + action.reference?.toList.length,
    match action.task with
    | .reuses => []
    | _ => supply.planned⟩

theorem Subset.Stores.exists_supplied {resolver : Resolver} {subset : Subset} {supply : Supply}
    {actions : List Action} {task : Task} {data : task.Data}
    (stores : subset.Stores resolver supply.taken supply.defined (⟨task, data⟩ :: actions))
    (closed : task.Settles → supply.planned = []) (noEntry : task ≠ .entry)
    (unopened : ∀ kind walk referable, task ≠ .opens kind walk referable) :
    ∃ redone, task.Redone subset data redone ∧
      Supplies resolver subset supply ⟨task, redone⟩ (supply.behind ⟨task, data⟩) := by
  cases task with
  | define code width =>
      refine ⟨data, rfl, .define ?_⟩
      have references := stores.references
      rw [List.filterMap_cons] at references
      rw [← Array.getElem?_toList, ← List.head?_drop, references]
      rfl
  | entry => exact absurd rfl noEntry
  | skip code =>
      obtain ⟨⟨v, attributes, here, rfl⟩, _⟩ := stores.holds.of_fresh rfl
      exact ⟨(), rfl, .skip (closed trivial) here (Variable.code_attachAll _ _)
        (Variable.value_attachAll _ _)⟩
  | count code info passes =>
      have small : passes.toNat < 2 ^ 63 := stores.words _ List.mem_cons_self
      obtain ⟨⟨v, attributes, here, rfl⟩, _⟩ := stores.holds.of_fresh rfl
      exact ⟨(), rfl, .count here (Variable.code_attachAll _ _)
        (count_of_integer small (Variable.value_attachAll _ _))⟩
  | unlisted code width =>
      obtain ⟨⟨v, attributes, here, rfl⟩, _⟩ := stores.holds.of_fresh rfl
      have supplied := @Supplies.unlisted resolver subset supply code width _ (closed trivial) here
        (Variable.code_attachAll _ _)
      rw [Variable.value_attachAll] at supplied
      exact ⟨data, rfl, supplied⟩
  | value code field width =>
      obtain ⟨⟨v, attributes, here, rfl⟩, _⟩ := stores.holds.of_fresh rfl
      have supplied := @Supplies.value resolver subset supply code field width _ (closed trivial) here
        (Variable.code_attachAll _ _)
      rw [Variable.value_attachAll, Variable.associated_attachAll] at supplied
      exact ⟨data, rfl, supplied⟩
  | attach target code field width =>
      obtain ⟨v, a, here, attached⟩ := stores.attached target code field width data List.mem_cons_self
      have supplied := @Supplies.attach resolver subset supply target code field width v a
        (closed trivial) here attached
      refine ⟨_, ?_, supplied⟩
      simp only [Task.Redone, Subset.attributeData, here, Option.bind_some, attached]
  | opens kind walk referable => exact absurd rfl (unopened kind walk referable)
  | reuses => exact ⟨(), rfl, .reuses⟩
  | cancels => exact ⟨(), rfl, .cancels (closed trivial)⟩
  | other => exact ⟨(), rfl, .other⟩

/-! ## Step by step -/

namespace Situation

variable {resolver : Resolver} {subset : Subset} {kept : List Nat} {supply : Supply}
  {actions : List Action} {events : List Event} {σ σ' σ₁ σ₂ : Situation} {event : Event} {task : Task}
  {data : task.Data}

theorem Begins.resembles {planned : List Bool} {code : Descriptor} {σ₁' : Situation}
    (same : Resembles kept planned actions σ σ') (begins : σ.Begins code σ₁)
    (settled : σ'.settle = .ok σ₁') : σ'.Begins code σ₁' := by
  refine ⟨same.modifiers ▸ begins.undefined, ?_, settled⟩
  rw [same.isCollecting]
  exact begins.noEntry

theorem Resembles.reuse {planned : List Bool} {bitmap : Bitmap}
    (same : Resembles kept planned actions σ σ') (kept' : σ.bitmap.reuse = .ok bitmap)
    {actions' : List Action} (turn : InTurn (selection { σ with bitmap } actions') (given actions'))
    (again : ∀ i ∈ given actions', i ∈ kept) :
    ∃ bitmap', σ'.bitmap.reuse = .ok bitmap' ∧
      Resembles kept [] actions' { σ with bitmap } { σ' with bitmap := bitmap' } := by
  obtain ⟨targets, found, rfl⟩ := Bitmap.reuse_ok_iff.1 kept'
  obtain ⟨targets', found', covers⟩ := same.kept targets found
  refine ⟨_, Bitmap.reuse_ok_iff.2 ⟨targets', found', rfl⟩, same.modifiers, same.codes,
    same.referable, same.kind, same.keepNext, ?_, .selected rfl (covers.agree turn again)⟩
  intro targets'' found''
  cases found.symm.trans found''
  exact ⟨targets', found', covers⟩

theorem Resembles.step_unsettled
    (same : Resembles kept supply.planned (⟨task, data⟩ :: actions) σ σ') (regular : σ.Regular)
    (step : Step resolver σ event task σ₁)
    (more : Log resolver (σ₁.record task data) events actions σ₂) (noEntry : task ≠ .entry)
    (stays : ¬task.Settles) (again : task = .reuses → ∀ i ∈ given actions, i ∈ kept) :
    ∃ σ₁', Step resolver σ' event task σ₁' ∧ ∀ redone, task.Redone subset data redone →
      Resembles kept (supply.behind ⟨task, data⟩).planned actions (σ₁.record task data)
        (σ₁'.record task redone) := by
  have behindRegular := regular.step step
  have passed (entries : upcoming (⟨task, data⟩ :: actions) = upcoming actions)
      (attributes : given (⟨task, data⟩ :: actions) = given actions) :
      Resembles kept supply.planned actions σ σ' := same.pass entries attributes
  cases step with
  | @define code width defining =>
      refine ⟨σ', .define (same.modifiers ▸ defining), ?_⟩
      rintro reference rfl
      simp only [record]
      rw [same.modifiers]
      exact (passed rfl rfl).withModifiers (σ.modifiers.defineReference code reference)
  | entry => exact absurd rfl noEntry
  | @count _ code info passes known =>
      exact ⟨_, .count known, fun _ _ => (passed rfl rfl).emit regular code⟩
  | @modify walk code modification op =>
      refine ⟨_, .modify op, fun _ _ => ?_⟩
      rw [same.modifiers]
      exact (passed rfl rfl).withModifiers (σ.modifiers.apply modification)
  | keep op =>
      have passed := passed rfl rfl
      exact ⟨_, .keep op, fun _ _ => ⟨passed.modifiers, passed.codes, passed.referable, passed.kind,
        rfl, passed.kept, passed.phase⟩⟩
  | reuse op keptOk =>
      obtain ⟨bitmap', keptOk', reused⟩ := same.reuse keptOk
        (inTurn_given more behindRegular) (again rfl)
      exact ⟨_, .reuse op keptOk', fun _ _ => reused⟩
  | forget op =>
      have passed := passed rfl rfl
      exact ⟨_, .forget op, fun _ _ => ⟨passed.modifiers, passed.codes, passed.referable,
        passed.kind, rfl, by rintro _ ⟨⟩, passed.phase⟩⟩
  | unlisted | skip | value | quality | insert | opens | marker | cancel => exact absurd trivial stays

theorem Resembles.step_settles {planned : List Bool}
    (same : Resembles kept planned (⟨task, data⟩ :: actions) σ σ') (regular : σ.Regular)
    (step : Step resolver σ event task σ₁)
    (more : Log resolver (σ₁.record task data) events actions σ₂) (settles : task.Settles)
    (unopened : ∀ kind walk referable, task ≠ .opens kind walk referable) :
    planned = [] ∧ ∃ σ₁', Step resolver σ' event task σ₁' ∧ ∀ redone,
      Resembles
        (if σ.bitmap.isCollecting ∧ σ.bitmap.keepNext then given (⟨task, data⟩ :: actions) else kept)
        [] actions (σ₁.record task data) (σ₁'.record task redone) := by
  have turn := inTurn_given (.cons data (task_of_step step) more) regular
  have complete := @Action.upcoming_of_settles ⟨task, data⟩ settles actions
  have settled {σ₂ : Situation} (settledOk : σ.settle = .ok σ₂) :=
    same.settle complete turn settledOk
  -- Elements find the same modifiers, and what they emit is emitted alike.
  have emitted {σ₂ σ₂' : Situation} {kept : List Nat} (settledOk : σ.settle = .ok σ₂)
      (behind : Resembles kept [] (⟨task, data⟩ :: actions) σ₂ σ₂')
      (fewer : (given actions).length ≤ (given (⟨task, data⟩ :: actions)).length)
      (modifiers : Modifiers) (code : Descriptor) :
      Resembles kept [] actions ({ σ₂ with modifiers }.emit code) ({ σ₂' with modifiers }.emit code) :=
    ((behind.ahead (isCollecting_of_settle settledOk) fewer).withModifiers modifiers).emit
      ((regular.settle settledOk).withModifiers _) code
  cases step with
  | define | entry | count | modify | keep | reuse | forget => cases settles
  | opens => exact absurd rfl (unopened _ _ _)
  | @unlisted σ₁ code width e begins unknown notFound localWidth =>
      obtain ⟨rfl, σ₁', settledOk, behind⟩ := settled begins.settled
      refine ⟨rfl, _, .unlisted (begins.resembles same settledOk) unknown notFound
        (behind.modifiers ▸ localWidth), fun _ => ?_⟩
      have emitted := emitted begins.settled behind (Nat.le_refl _) σ₁.withoutLocal.modifiers code
      unfold withoutLocal at emitted ⊢
      rw [behind.modifiers]
      exact emitted
  | @skip σ₁ code info modifiers begins known gap =>
      obtain ⟨rfl, σ₁', settledOk, behind⟩ := settled begins.settled
      exact ⟨rfl, _, .skip (begins.resembles same settledOk) known
        (by rw [withoutLocal, behind.modifiers]; exact gap), fun _ =>
          emitted begins.settled behind (Nat.le_refl _) modifiers code⟩
  | @value σ₁ code info modifiers modifiers' field begins known noGap fieldOk free =>
      obtain ⟨rfl, σ₁', settledOk, behind⟩ := settled begins.settled
      exact ⟨rfl, _, .value (begins.resembles same settledOk) known
        (by rw [withoutLocal, behind.modifiers]; exact noGap) (behind.modifiers ▸ fieldOk)
        ((behind.takesElement code).trans free), fun _ =>
          emitted begins.settled behind (Nat.le_refl _) modifiers' code⟩
  | @quality σ₁ _ code info modifiers modifiers' field target targetCode begins known noGap fieldOk
      takes found =>
      obtain ⟨rfl, σ₁', settledOk, behind⟩ := settled begins.settled
      obtain ⟨σ₂', found', next⟩ := (behind.withModifiers modifiers').nextTarget rfl found
      exact ⟨rfl, σ₂', .quality (begins.resembles same settledOk) known
        (by rw [withoutLocal, behind.modifiers]; exact noGap) (behind.modifiers ▸ fieldOk)
        ((behind.takesElement code).trans takes) found', fun _ => next⟩
  | @insert σ₁ walk code octets op settledOk =>
      obtain ⟨rfl, σ₁', settledOk', behind⟩ := settled settledOk
      have passed := behind.ahead (isCollecting_of_settle settledOk) (Nat.le_refl (given actions).length)
      exact ⟨rfl, _, .insert op settledOk', fun _ => passed.emit (regular.settle settledOk) code⟩
  | @marker σ₁ _ walk code kind target targetCode field modifiers op settledOk sameKind found fieldOk =>
      obtain ⟨rfl, σ₁', settledOk', behind⟩ := settled settledOk
      obtain ⟨σ₂', found', next⟩ := behind.nextTarget rfl found
      exact ⟨rfl, _, .marker op settledOk' (behind.kind.trans sameKind) found'
        (next.modifiers ▸ fieldOk), fun _ => next.withModifiers modifiers⟩
  | cancel op settledOk =>
      obtain ⟨rfl, σ₁', settledOk', behind⟩ := settled settledOk
      exact ⟨rfl, _, .cancel op settledOk', fun _ => ⟨behind.modifiers, behind.codes,
        behind.referable, rfl, rfl, by rintro _ ⟨⟩, .idle rfl⟩⟩

theorem Resembles.step (same : Resembles kept supply.planned (⟨task, data⟩ :: actions) σ σ')
    (regular : σ.Regular) (step : Step resolver σ event task σ₁)
    (more : Log resolver (σ₁.record task data) events actions σ₂) (noEntry : task ≠ .entry)
    (unopened : ∀ kind walk referable, task ≠ .opens kind walk referable)
    (again : task = .reuses → ∀ i ∈ given actions, i ∈ kept) :
    (task.Settles → supply.planned = []) ∧ ∃ σ₁', Step resolver σ' event task σ₁' ∧
      ∀ redone, task.Redone subset data redone →
        Resembles
          (if σ.bitmap.isCollecting ∧ σ.bitmap.keepNext ∧ task.Settles then
            given (⟨task, data⟩ :: actions)
          else kept) (supply.behind ⟨task, data⟩).planned actions (σ₁.record task data)
          (σ₁'.record task redone) := by
  by_cases settles : task.Settles
  · obtain ⟨closed, σ₁', step', behind⟩ := same.step_settles regular step more settles unopened
    have none : (supply.behind ⟨task, data⟩).planned = [] := by
      simp only [Supply.behind]
      split
      · rfl
      · exact closed
    simp only [settles, and_true, none]
    exact ⟨fun _ => closed, σ₁', step', fun redone _ => behind redone⟩
  · rw [if_neg fun all => settles all.2.2]
    exact ⟨fun settled => absurd settled settles,
      same.step_unsettled regular step more noEntry settles again⟩

theorem Resembles.entry {planned : List Bool} {present : Bool}
    (same : Resembles kept planned (⟨.entry, present⟩ :: actions) σ σ')
    (collecting : σ.bitmap.isCollecting) :
    ∃ present' rest, planned = present' :: rest ∧
      Resembles kept rest actions (σ.record .entry present) (σ'.record .entry present') := by
  have phase := same.phase
  unfold Bitmap.isCollecting at collecting
  generalize here : σ.bitmap.phase = p, here' : σ'.bitmap.phase = p' at phase collecting
  cases phase with
  | idle | selected => cases collecting
  | @collecting available entries entries' size long covers =>
      cases planned with
      | nil => cases long
      | cons present' rest =>
          refine ⟨present', rest, rfl, same.modifiers, same.codes, same.referable, ?_, ?_, ?_, ?_⟩
          all_goals simp only [record, Bitmap.pushEntry, here, here']
          · exact same.kind
          · exact same.keepNext
          · exact same.kept
          · refine .collecting (by simp [size]) (Nat.succ.inj long) ?_
            simp only [upcoming, List.length_cons, Array.size_push, Array.toList_push,
              List.append_assoc, List.singleton_append] at covers ⊢
            rwa [Nat.add_right_comm, Nat.add_assoc]

theorem Resembles.opens {planned : List Bool} {kind : BitmapKind} {walk : Walk} {referable : Array Nat}
    {data : (Task.opens kind walk referable).Data}
    (same : Resembles kept planned (⟨.opens kind walk referable, data⟩ :: actions) σ σ')
    (regular : σ.Regular) (step : Step resolver σ event (.opens kind walk referable) σ₁)
    (more : Log resolver σ₁ events actions σ₂)
    (enough : (upcoming actions).length ≤ referable.size) :
    planned = [] ∧ referable.size ≤ σ.codes.size ∧ (∀ i ∈ referable, i < σ.codes.size) ∧
      ∃ σ₁', Step resolver σ' event (.opens kind walk referable) σ₁' ∧
        Resembles
          (if σ.bitmap.isCollecting ∧ σ.bitmap.keepNext ∧ (Task.opens kind walk referable).Settles then
            given (⟨.opens kind walk referable, data⟩ :: actions)
          else kept)
          ((window referable referable.size (upcoming actions).length).map
            (decide <| · ∈ given actions)) actions σ₁ σ₁' := by
  have regular' := regular.step step
  have turn := inTurn_given more regular'
  have codes : σ₁.codes = σ.codes := codes_of_step step
  cases step with
  | @opens σ₁ walk code kind op settled =>
      obtain ⟨rfl, σ₁', settled', behind⟩ := same.settle rfl (inTurn_nil _) settled
      have long := length_window enough (Nat.le_refl σ₁.referable.size)
      have step' := @Step.opens resolver σ' σ₁' walk code kind op settled'
      rw [behind.referable] at step'
      refine ⟨rfl, codes ▸ regular'.size_referable_le,
        fun i mem => codes ▸ regular'.bounded.referable i mem, _, step', behind.modifiers,
        behind.codes, rfl, rfl, behind.keepNext, ?_, ?_⟩
      · simp only [Task.Settles, and_true]
        exact behind.kept
      simp only [Bitmap.start]
      refine .collecting rfl (by rw [List.length_map, long]) ?_
      simp only [selection, Bitmap.start, List.nil_append] at turn
      simp only [List.nil_append, List.length_map, long, Array.size_empty, Nat.zero_add]
      exact covers_pick (nodup_window regular' _ _) long.symm turn

theorem size_codes_of_step (step : Step resolver σ event task σ₁) :
    (σ₁.record task data).codes.size = σ.codes.size + (Action.fresh? ⟨task, data⟩).toList.length := by
  rw [codes_record, codes_of_step step]
  cases task <;> first | rfl | exact Array.size_push _

end Situation

/-! ## The whole subset -/

section

variable {resolver : Resolver} {template : Template} {subset : Subset} {kept : List Nat}
  {supply : Supply} {events : List Event} {actions : List Action} {σ σ' σ₂ : Situation}

theorem Subset.Holds.taken_le {taken : Nat} (holds : subset.Holds taken []) : subset.size ≤ taken := by
  unfold Holds at holds
  have empty := holds.length_eq.symm
  rw [List.length_drop, Array.length_toList, List.filterMap_nil, List.length_nil] at empty
  exact Nat.le_of_sub_eq_zero empty

def Subset.Redoes (resolver : Resolver) (subset : Subset) (supply : Supply) (σ : Situation)
    (events : List Event) (actions : List Action) : Prop :=
  ∃ redone σ' defined, Log resolver σ events redone σ' ∧
    List.Forall₂ (Action.Redone subset) actions redone ∧
    SuppliesAll resolver subset supply redone ⟨subset.size, defined, []⟩ ∧
    ∃ σ₁, σ'.settle = .ok σ₁

theorem Subset.Redoes.cons {supply' : Supply} {σ₁ : Situation} {event : Event} {task : Task}
    {data value : task.Data} (step : Situation.Step resolver σ event task σ₁)
    (again : task.Redone subset data value)
    (first : Supplies resolver subset supply ⟨task, value⟩ supply')
    (more : subset.Redoes resolver supply' (σ₁.record task value) events actions) :
    subset.Redoes resolver supply σ (event :: events) (⟨task, data⟩ :: actions) := by
  obtain ⟨redone, σ', defined, log, others, supplied, settled⟩ := more
  exact ⟨⟨task, value⟩ :: redone, σ', defined, .cons value (Situation.task_of_step step) log,
    .cons ⟨again⟩ others, .cons first supplied, settled⟩

/-- From resembling situations on, the subset supplies the data of a log like the one that it was
read with. -/
theorem Subset.Restores.redoes (restores : subset.Restores resolver σ kept events actions σ₂)
    (same : Situation.Resembles kept supply.planned actions σ σ') (regular : σ.Regular)
    (size : σ.codes.size = supply.taken)
    (stores : subset.Stores resolver supply.taken supply.defined actions)
    (settled : ∃ σ₃, σ₂.settle = .ok σ₃) : subset.Redoes resolver supply σ' events actions := by
  induction restores generalizing supply σ' with
  | @nil σ kept =>
      obtain ⟨σ₃, settled⟩ := settled
      obtain ⟨empty, σ₃', settled', _⟩ := same.settle rfl (Situation.inTurn_nil _) settled
      have all : supply.taken = subset.size :=
        Nat.le_antisymm stores.taken_le stores.holds.taken_le
      obtain ⟨taken, defined, planned⟩ := supply
      cases empty
      cases all
      exact ⟨[], σ', defined, .nil, .nil, .nil, σ₃', settled'⟩
  | @cons σ σ₁ σ₂ kept event events task actions data first undefined told again more ih =>
      have step := Situation.step_of_task first
      have log := more.log
      have regular' := (regular.step step).record data
      have size' := (@Situation.size_codes_of_step resolver σ σ₁ event task data step).trans
        (congrArg (· + _) size)
      have tail := stores.tail
      by_cases entry : task = .entry
      · subst entry
        cases step with
        | entry free collecting =>
            -- The entry that was read need not be the one that is planned.
            obtain ⟨present, rest, planned, resembles⟩ := same.entry collecting
            have step' : Situation.Step resolver σ' (.element .dataPresent) .entry σ' :=
              .entry (same.modifiers ▸ free) (same.isCollecting.trans collecting)
            have more : subset.Redoes resolver { supply with planned := rest } _ events actions :=
              ih (by simpa only [Task.Settles, and_false, ↓reduceIte] using resembles) regular' size'
                tail settled
            exact .cons step' trivial (.entry planned) more
      by_cases opens : ∃ kind walk referable, task = .opens kind walk referable
      · obtain ⟨kind, walk, referable, rfl⟩ := opens
        obtain ⟨enough, foreseen⟩ := stores.foresees.1 kind walk referable rfl
        obtain ⟨closed, room, inside, σ₁', step', resembles⟩ := same.opens regular step log enough
        obtain ⟨entries, plan, planned⟩ := Subset.plan_of_tells enough foreseen
          ((size ▸ room).trans stores.taken_le)
          (fun i mem => Nat.lt_of_lt_of_le (size ▸ inside i mem) stores.taken_le)
          (told kind walk referable rfl)
        rw [← planned] at resembles
        have more : subset.Redoes resolver { supply with planned := entries.toList } _ events actions :=
          ih resembles regular' size' tail settled
        exact .cons step' (Eq.refl data) (.opens closed plan) more
      · have unopened (kind : BitmapKind) (walk : Walk) (referable : Array Nat) :
            task ≠ .opens kind walk referable := fun same => opens ⟨kind, walk, referable, same⟩
        obtain ⟨closed, σ₁', step', resembles⟩ :=
          same.step regular step log entry unopened again
        obtain ⟨value, again, first'⟩ := stores.exists_supplied closed entry unopened
        exact .cons step' again first' (ih (resembles value again) regular' size' tail settled)

end

end Bufr
