import Bufr.Proofs.Coding.Reading
import Mathlib.Data.List.Forall2

/-!
The subset that a log of actions records: a variable for each action that has one, with the
attributes that the log attaches to it in the order of the log.
-/

namespace Bufr

open Situation (Log)

namespace Action

def fresh? : Action → Option Variable
  | ⟨.skip code, _⟩ => some (.missing code)
  | ⟨.count code _ passes, _⟩ => some (.ofValue code (.integer (Int64.ofNat passes.toNat)))
  | ⟨.unlisted code _, value⟩ => some (.ofValue code value)
  | ⟨.value code _ _, data⟩ => some { Variable.ofValue code data.1 with associated := data.2 }
  | _ => none

def reference? : Action → Option (Descriptor × Int)
  | ⟨.define code _, reference⟩ => some (code, reference)
  | _ => none

def attributeFor? (index : Nat) : Action → Option Variable
  | ⟨.attach target code _ _, data⟩ =>
    if target = index then some { Variable.ofValue code data.1 with associated := data.2 } else none
  | _ => none

theorem attributeFor?_eq_some {index : Nat} {action : Action} {a : Variable}
    (attached : action.attributeFor? index = some a) :
    ∃ code field width data, action = ⟨.attach index code field width, data⟩ ∧
      a = { Variable.ofValue code data.1 with associated := data.2 } := by
  unfold attributeFor? at attached
  split at attached
  next target code field width data =>
    split at attached
    next here =>
      cases here
      cases attached
      exact ⟨code, field, width, data, rfl, rfl⟩
    · cases attached
  · cases attached

theorem attributes_of_fresh? {action : Action} {v : Variable} (fresh : action.fresh? = some v) :
    v.attributes = [] := by
  obtain ⟨task, data⟩ := action
  cases task <;> cases fresh <;> rfl

end Action

namespace Variable

def attachAll (v : Variable) (attributes : List Variable) : Variable :=
  attributes.foldl setAttribute v

theorem attachAll_cons (v a : Variable) (attributes : List Variable) :
    v.attachAll (a :: attributes) = (v.setAttribute a).attachAll attributes := rfl

theorem attachAll_induction {P : Variable → Prop} {v : Variable} {attributes : List Variable}
    (start : P v) (step : ∀ v a, P v → P (v.setAttribute a)) : P (v.attachAll attributes) := by
  induction attributes generalizing v with
  | nil => exact start
  | cons a attributes ih => exact ih (step v a start)

@[simp] theorem code_attachAll (v : Variable) (attributes : List Variable) :
    (v.attachAll attributes).code = v.code :=
  attachAll_induction (P := fun u => u.code = v.code) rfl fun _ _ same => same

@[simp] theorem value_attachAll (v : Variable) (attributes : List Variable) :
    (v.attachAll attributes).value = v.value :=
  attachAll_induction (P := fun u => u.value = v.value) rfl fun _ _ same => same

@[simp] theorem associated_attachAll (v : Variable) (attributes : List Variable) :
    (v.attachAll attributes).associated = v.associated :=
  attachAll_induction (P := fun u => u.associated = v.associated) rfl fun _ _ same => same

theorem mem_attach {a b : Variable} {attributes : List Variable}
    (mem : b ∈ attach a attributes) : b = a ∨ b ∈ attributes := by
  induction attributes with
  | nil => exact Or.inl (List.mem_singleton.1 mem)
  | cons c rest ih =>
      unfold attach at mem
      split at mem
      · rcases List.mem_cons.1 mem with rfl | mem
        · exact Or.inl rfl
        · exact Or.inr (List.mem_cons_of_mem c mem)
      · rcases List.mem_cons.1 mem with rfl | mem
        · exact Or.inr List.mem_cons_self
        · exact (ih mem).imp_right (List.mem_cons_of_mem c)

theorem mem_attributes_attachAll {v b : Variable} {attributes : List Variable}
    (mem : b ∈ (v.attachAll attributes).attributes) : b ∈ v.attributes ∨ b ∈ attributes := by
  induction attributes generalizing v with
  | nil => exact Or.inl mem
  | cons a attributes ih =>
      rcases ih mem with mem | mem
      · exact (mem_attach mem).elim (fun same => Or.inr (same ▸ List.mem_cons_self)) Or.inl
      · exact Or.inr (List.mem_cons_of_mem a mem)

theorem attached?_setAttribute (v a : Variable) (code : Descriptor) :
    (v.setAttribute a).attached? code = if a.code = code then some a else v.attached? code := by
  unfold setAttribute attached?
  simp only
  induction v.attributes with
  | nil => by_cases same : a.code = code <;> simp [attach, same]
  | cons b rest ih =>
      unfold attach
      split
      next replaced =>
        by_cases same : a.code = code
        · simp [same]
        · simp [same, show b.code ≠ code from replaced ▸ same]
      next kept =>
        by_cases same : b.code = code
        · have other : a.code ≠ code := fun h => kept (same.trans h.symm)
          simp [same, other]
        · simp only [List.find?_cons, same, decide_false]
          exact ih

theorem attached?_attachAll (v : Variable) (attributes : List Variable) (code : Descriptor) :
    (v.attachAll attributes).attached? code =
      (attributes.reverse.find? (·.code = code)).or (v.attached? code) := by
  induction attributes generalizing v with
  | nil => rfl
  | cons a attributes ih =>
      rw [attachAll_cons, ih, attached?_setAttribute, List.reverse_cons, List.find?_append,
        Option.or_assoc]
      congr 1
      by_cases same : a.code = code <;> simp [same]

end Variable

namespace Subset

/-! ## Variables -/

theorem references_record (subset : Subset) (action : Action) :
    (subset.record action).references.toList =
      subset.references.toList ++ action.reference?.toList := by
  obtain ⟨task, data⟩ := action
  cases task <;> simp [record, Action.reference?, push]

theorem references_recordAll (subset : Subset) (actions : List Action) :
    (subset.recordAll actions).references.toList =
      subset.references.toList ++ actions.filterMap Action.reference? := by
  induction actions generalizing subset with
  | nil => simp [recordAll]
  | cons action actions ih =>
      refine (ih _).trans ?_
      rw [references_record, List.append_assoc, List.filterMap_cons]
      cases action.reference? <;> rfl

theorem record_of_fresh? {action : Action} {v : Variable} (fresh : action.fresh? = some v)
    (subset : Subset) : (subset.record action).vars = subset.vars.push v := by
  obtain ⟨task, data⟩ := action
  cases task <;> cases fresh <;> rfl

theorem getElem?_record {action : Action} (old : action.fresh? = none) (subset : Subset)
    (index : Nat) :
    (subset.record action).vars[index]? =
      subset.vars[index]?.map (·.attachAll (action.attributeFor? index).toList) := by
  obtain ⟨task, data⟩ := action
  cases task with
  | skip | count | unlisted | value => cases old
  | attach target code field width =>
      simp only [record, Array.getElem?_modify, Action.attributeFor?]
      split
      next here => rfl
      next elsewhere => exact (congrFun Option.map_id _).symm
  | define | entry | opens | reuses | cancels | other => exact (congrFun Option.map_id _).symm

def attributesFor (actions : List Action) (index : Nat) : List Variable :=
  actions.filterMap (Action.attributeFor? index)

theorem attributesFor_cons (action : Action) (actions : List Action) (index : Nat) :
    attributesFor (action :: actions) index =
      (action.attributeFor? index).toList ++ attributesFor actions index := by
  unfold attributesFor
  rw [List.filterMap_cons]
  cases action.attributeFor? index <;> rfl

variable {resolver : Resolver} {σ σ' : Situation} {events : List Event} {actions : List Action}

theorem lt_of_attributeFor? {task : Task} {event : Event} {data : task.Data} {index : Nat}
    {a : Variable} (bounded : σ.Bounded) (taskOk : σ.task resolver event = .ok (task, σ'))
    (attached : Action.attributeFor? index ⟨task, data⟩ = some a) : index < σ.codes.size := by
  have inside {σ σ₁ σ₂ : Situation} {target : Nat} {targetCode : Descriptor} (bounded : σ.Bounded)
      (settled : σ.settle = .ok σ₁) (modifiers : Modifiers)
      (found : { σ₁ with modifiers }.nextTarget = .ok (target, targetCode, σ₂)) :
      target < σ.codes.size := by
    have settledBound := bounded.settle settled
    obtain ⟨bitmap, bitmapOk, _⟩ := Situation.nextTarget_ok_iff.1 found
    have lt := (settledBound.withModifiers modifiers).target_lt bitmapOk
    obtain ⟨_, _, rfl⟩ := Situation.settle_ok_iff.1 settled
    exact lt
  obtain ⟨code, field, width, _, same, _⟩ := Action.attributeFor?_eq_some attached
  cases same
  cases Situation.step_of_task taskOk with
  | quality begins _ _ _ _ found => exact inside bounded begins.settled _ found
  | marker _ settled _ found => exact inside bounded settled _ found

theorem getElem?_recordAll (log : Log resolver σ events actions σ') (bounded : σ.Bounded)
    {subset : Subset} (codes : σ.codes = subset.codes) (index : Nat) :
    (subset.recordAll actions).vars[index]? =
      (subset.vars.toList ++ actions.filterMap Action.fresh?)[index]?.map
        (·.attachAll (attributesFor actions index)) := by
  induction log generalizing subset with
  | nil => simp [recordAll, attributesFor, Variable.attachAll]
  | @cons σ σ₁ σ' event events task actions data taskOk log ih =>
      have bounded' := (bounded.step (Situation.step_of_task taskOk)).record data
      have more := ih bounded' (Decoder.codes_follow codes taskOk data)
      have unattached (outside : σ.codes.size ≤ index) :
          Action.attributeFor? index ⟨task, data⟩ = none := by
        cases attached : Action.attributeFor? index ⟨task, data⟩ with
        | none => rfl
        | some a =>
            have := lt_of_attributeFor? bounded taskOk attached
            omega
      show ((subset.record ⟨task, data⟩).recordAll actions).vars[index]? = _
      rw [more, attributesFor_cons, List.filterMap_cons]
      cases fresh : Action.fresh? ⟨task, data⟩ with
      | some v =>
          -- The new variable stands behind all targets that there are.
          rw [record_of_fresh? fresh, Array.toList_push, List.append_assoc]
          have silent : Action.attributeFor? index ⟨task, data⟩ = none := by
            cases task <;> first | rfl | cases fresh
          rw [silent]
          rfl
      | none =>
          have size : σ.codes.size = subset.vars.toList.length := by
            rw [codes, Subset.codes, Array.size_map, Array.length_toList]
          have size' : (subset.record ⟨task, data⟩).vars.toList.length = subset.vars.toList.length := by
            have := congrArg Array.size (codes_record subset ⟨task, data⟩)
            have silent : task.emitted? = none := by
              cases task <;> first | rfl | cases fresh
            simpa [Subset.codes, silent] using this
          -- Only a variable that is there already can be the target of this action.
          rcases Nat.lt_or_ge index subset.vars.toList.length with inside | outside
          · rw [List.getElem?_append_left (size' ▸ inside), List.getElem?_append_left inside,
              Array.getElem?_toList, Array.getElem?_toList, getElem?_record fresh, Option.map_map]
            congr 1
            funext v
            rw [Function.comp_apply, Variable.attachAll, Variable.attachAll, Variable.attachAll,
              List.foldl_append]
          · rw [unattached (size ▸ outside), List.getElem?_append_right (size' ▸ outside),
              List.getElem?_append_right outside, size']
            rfl

theorem vars_recordAll (log : Log resolver .start events actions σ') :
    (Subset.empty.recordAll actions).vars.toList =
      (actions.filterMap Action.fresh?).mapIdx fun index v =>
        v.attachAll (attributesFor actions index) := by
  apply List.ext_getElem?
  intro index
  rw [Array.getElem?_toList, getElem?_recordAll log Situation.bounded_start codes_start,
    List.getElem?_mapIdx]
  rfl

def Holds (subset : Subset) (taken : Nat) (actions : List Action) : Prop :=
  List.Forall₂ (fun v u => ∃ attributes, u = Variable.attachAll v attributes)
    (actions.filterMap Action.fresh?) (subset.vars.toList.drop taken)

theorem holds_recordAll (log : Log resolver .start events actions σ') :
    (Subset.empty.recordAll actions).Holds 0 actions := by
  unfold Holds
  rw [List.drop_zero, vars_recordAll log]
  refine List.forall₂_iff_get.2 ⟨List.length_mapIdx.symm, fun i _ _ => ?_⟩
  rw [List.get_eq_getElem, List.get_eq_getElem, List.getElem_mapIdx]
  exact ⟨_, rfl⟩

theorem Holds.of_silent {subset : Subset} {taken : Nat} {action : Action}
    (holds : subset.Holds taken (action :: actions)) (silent : action.fresh? = none) :
    subset.Holds taken actions := by
  unfold Holds at *
  rwa [List.filterMap_cons_none silent] at holds

theorem Holds.of_fresh {subset : Subset} {taken : Nat} {action : Action} {u : Variable}
    (holds : subset.Holds taken (action :: actions)) (fresh : action.fresh? = some u) :
    (∃ v attributes, subset.vars[taken]? = some v ∧ v = u.attachAll attributes) ∧
      subset.Holds (taken + 1) actions := by
  unfold Holds at *
  rw [List.filterMap_cons_some fresh] at holds
  generalize behind : subset.vars.toList.drop taken = vars at holds
  cases holds with
  | @cons _ v _ vars first more =>
      obtain ⟨attributes, same⟩ := first
      refine ⟨⟨v, attributes, ?_, same⟩, ?_⟩
      · rw [← Array.getElem?_toList, ← List.head?_drop, behind, List.head?_cons]
      · rwa [← List.tail_drop, behind, List.tail_cons]

end Subset

end Bufr
