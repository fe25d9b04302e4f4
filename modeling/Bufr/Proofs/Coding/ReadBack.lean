import Bufr.Proofs.Coding.Operators
import Bufr.Proofs.Coding.Recording
import Bufr.Proofs.Coding.Writing
import Bufr.Template.Expansion

/-!
The decoder follows the encoder. Reading the bits that a subset was written to performs the same tasks,
with the same entries and reference values and with values that are read back, so both stay in the
same situation to the end.
-/

namespace Bufr

open Situation (Log)

inductive Action.ReadsBack : Action → Action → Prop where
  | mk {task : Task} {written read : task.Data} (back : task.ReadsBack written read) :
      ReadsBack ⟨task, written⟩ ⟨task, read⟩

inductive Action.SameRecord : Action → Action → Prop where
  | mk {task : Task} {data data' : task.Data}
      (same : ∀ σ, Situation.record task data' σ = Situation.record task data σ) :
      SameRecord ⟨task, data⟩ ⟨task, data'⟩

theorem exists_related_of_mem {α β : Type} {R : α → β → Prop} {as : List α} {bs : List β} {a : α}
    (related : List.Forall₂ R as bs) (mem : a ∈ as) : ∃ b ∈ bs, R a b := by
  obtain ⟨i, inside, rfl⟩ := List.getElem_of_mem mem
  have inside' : i < bs.length := related.length_eq ▸ inside
  exact ⟨bs[i], List.getElem_mem inside', related.get inside inside'⟩

namespace Situation

variable {resolver : Resolver} {template : Template} {σ σ' : Situation} {events : List Event}
  {actions actions' : List Action}

theorem record_of_readsBack {task : Task} {written read : task.Data}
    (back : task.ReadsBack written read) (σ : Situation) : σ.record task read = σ.record task written := by
  cases task with
  | define => exact back ▸ rfl
  | entry => exact back ▸ rfl
  | _ => rfl

theorem log_of_sameRecord (log : Log resolver σ events actions σ')
    (same : List.Forall₂ Action.SameRecord actions actions') : Log resolver σ events actions' σ' := by
  induction log generalizing actions' with
  | nil =>
      cases same
      exact .nil
  | cons data taskOk log ih =>
      cases same with
      | cons first rest =>
          cases first with
          | mk same =>
              refine .cons _ taskOk ?_
              rw [same]
              exact ih rest

theorem log_of_readsBack (log : Log resolver σ events actions σ')
    (back : List.Forall₂ Action.ReadsBack actions actions') : Log resolver σ events actions' σ' :=
  log_of_sameRecord log (back.imp fun _ _ ⟨back⟩ => ⟨record_of_readsBack back⟩)

theorem isSound_of_log (log : Log resolver σ events actions σ') :
    ∀ action ∈ actions, action.task.IsSound := by
  induction log with
  | nil => exact nofun
  | cons data taskOk log ih =>
      intro action mem
      rcases List.mem_cons.1 mem with rfl | mem
      · exact isSound_of_step (step_of_task taskOk)
      · exact ih action mem

end Situation

theorem Action.reads_of_writes {actions : List Action} {x : Bits}
    (written : Bits.Spelled Action.Writes actions x)
    (readable : ∀ action ∈ actions,
      action.task.IsSound ∧ action.task.IsAscii action.data ∧ action.task.HasPlaces action.data) :
    ∃ actions', List.Forall₂ Action.ReadsBack actions actions' ∧ Bits.Spelled Action.Reads actions' x := by
  refine written.exists_related fun action mem y writtenOne => ?_
  obtain ⟨sound, ascii, places⟩ := readable action mem
  obtain ⟨data, read, back⟩ := Task.reads_of_writes writtenOne sound ascii places
  exact ⟨⟨_, data⟩, ⟨back⟩, read⟩

/-! ## The data that a subset supplies -/

section Supplied

variable {resolver : Resolver} {subset : Subset} {supply supply' : Supply} {action : Action}
  {actions : List Action}

def Variable.isAscii (v : Variable) : Bool :=
  v.value.isAscii && v.attributes.all (·.value.isAscii)

def Subset.isAscii (subset : Subset) : Bool := subset.vars.all Variable.isAscii

def Subset.attributeData (subset : Subset) (index : Nat) (code : Descriptor) : Value × Option Nat :=
  match subset.vars[index]?.bind (·.attached? code) with
  | some a => (a.value, a.associated)
  | none => (.missing, none)

theorem SuppliesAll.of_mem (supplied : SuppliesAll resolver subset supply actions supply')
    (mem : action ∈ actions) :
    ∃ before behind, Supplies resolver subset before action behind := by
  induction supplied with
  | nil => cases mem
  | cons first more ih =>
      rcases List.mem_cons.1 mem with rfl | mem
      · exact ⟨_, _, first⟩
      · exact ih mem

theorem Supplies.attributeData_eq {target : Nat} {code : Descriptor} {field : Field} {width : Nat}
    {data : Value × Option Nat}
    (supplied : Supplies resolver subset supply ⟨.attach target code field width, data⟩ supply') :
    target < subset.size ∧ data = subset.attributeData target code := by
  cases supplied with
  | attach _ found attached =>
      refine ⟨(Array.getElem?_eq_some_iff.1 found).1, ?_⟩
      simp only [Subset.attributeData, found, Option.bind_some, attached]
  | absent _ found unattached =>
      refine ⟨(Array.getElem?_eq_some_iff.1 found).1, ?_⟩
      simp only [Subset.attributeData, found, Option.bind_some, unattached]

theorem Supplies.isAscii (supplied : Supplies resolver subset supply action supply')
    (ascii : subset.isAscii) : action.task.IsAscii action.data := by
  have all_ascii {index : Nat} {v : Variable} (found : subset.vars[index]? = some v) :
      v.value.isAscii ∧ v.attributes.all (·.value.isAscii) := by
    have each := Array.all_eq_true_iff_forall_mem.1 ascii v (Array.mem_of_getElem? found)
    exact Bool.and_eq_true_iff.1 each
  cases supplied with
  | value _ found => exact (all_ascii found).1
  | attach _ found attached =>
      exact List.all_eq_true.1 (all_ascii found).2 _ (List.mem_of_find?_eq_some attached)
  | absent => rfl
  | _ => trivial

end Supplied

/-! ## Variables -/

namespace Task

def VariableReadsBack : Task → (written read : Variable) → Prop
  | skip _, v, v' => v.value = .missing ∧ v'.value = .missing ∧ v'.associated = none
  | count .., v, v' => v'.value = v.value ∧ v'.associated = none
  | unlisted _ width, v, v' => (width = 0 ∨ v'.value = v.value) ∧ v'.associated = none
  | value _ field width, v, v' =>
    BothReadBack field width (v.value, v.associated) (v'.value, v'.associated)
  | _, _, _ => False

theorem variableReadsBack_attachAll {task : Task} {v v' : Variable}
    (back : task.VariableReadsBack v v') (attributes : List Variable) :
    task.VariableReadsBack v (v'.attachAll attributes) := by
  cases task with
  | skip | count | unlisted | value =>
      simpa only [VariableReadsBack, Variable.value_attachAll, Variable.associated_attachAll]
        using back
  | define | entry | attach | opens | reuses | cancels | other => cases back

end Task

inductive Aligned : List Task → (written read : List Variable) → Prop where
  | nil : Aligned [] [] []
  | silent {task tasks vs vs'} (none_own : task.emitted? = none) (more : Aligned tasks vs vs') :
      Aligned (task :: tasks) vs vs'
  | own {task tasks v v' vs vs'} (named : task.emitted? = some v.code) (same : v'.code = v.code)
      (back : task.VariableReadsBack v v') (more : Aligned tasks vs vs') :
      Aligned (task :: tasks) (v :: vs) (v' :: vs')

namespace Aligned

variable {tasks : List Task} {vs vs' us : List Variable}

theorem codes_eq (aligned : Aligned tasks vs vs') : vs'.map (·.code) = vs.map (·.code) := by
  induction aligned with
  | nil => rfl
  | silent _ _ ih => exact ih
  | own _ same _ _ ih => rw [List.map_cons, List.map_cons, same, ih]

theorem withAttributes (aligned : Aligned tasks vs vs')
    (same : List.Forall₂ (fun v u => ∃ attributes, u = Variable.attachAll v attributes) vs' us) :
    Aligned tasks vs us := by
  induction aligned generalizing us with
  | nil =>
      cases same
      exact .nil
  | silent none_own _ ih => exact .silent none_own (ih same)
  | @own task tasks v v' vs vs' named code back _ ih =>
      cases same with
      | cons first rest =>
          obtain ⟨attributes, rfl⟩ := first
          exact .own named ((Variable.code_attachAll v' attributes).trans code)
            (Task.variableReadsBack_attachAll back attributes) (ih rest)

end Aligned

theorem integer_of_count {v : Variable} {passes : UInt64} (counted : v.count = .ok passes) :
    v.value = .integer (Int64.ofNat passes.toNat) := by
  have small := Encoder.lt_of_count counted
  unfold Variable.count at counted
  split at counted
  next number value =>
    split at counted
    next positive =>
      cases counted
      have bound := number.toInt_lt
      rw [value, UInt64.toNat_ofNat_of_lt' (Nat.lt_trans (by omega) (show 2 ^ 63 < 2 ^ 64 by decide))]
      congr 1
      rw [← Int64.toInt_inj, Int64.toInt_ofNat_of_lt (by omega)]
      omega
    · cases counted
  · cases counted

section

variable {resolver : Resolver} {subset : Subset} {supply supply' : Supply}
  {actions actions' : List Action}

theorem variableReadsBack_of_supplies {task : Task} {written read : task.Data} {u : Variable}
    (supplied : Supplies resolver subset supply ⟨task, written⟩ supply')
    (back : task.ReadsBack written read) (fresh : Action.fresh? ⟨task, read⟩ = some u) :
    ∃ v, subset.vars[supply.taken]? = some v ∧ supply'.taken = supply.taken + 1 ∧
      task.emitted? = some v.code ∧ u.code = v.code ∧ task.VariableReadsBack v u := by
  cases supplied with
  | skip _ found named missing =>
      cases fresh
      exact ⟨_, found, rfl, named ▸ rfl, named.symm, missing, rfl, rfl⟩
  | count found named counted =>
      cases fresh
      exact ⟨_, found, rfl, named ▸ rfl, named.symm, (integer_of_count counted).symm, rfl⟩
  | unlisted _ found named =>
      cases fresh
      exact ⟨_, found, rfl, named ▸ rfl, named.symm, back.imp_right Eq.symm, rfl⟩
  | value _ found named =>
      cases fresh
      exact ⟨_, found, rfl, named ▸ rfl, named.symm, back⟩
  | define | entry | attach | absent | opens | reuses | cancels | other => cases fresh

theorem taken_of_supplies {task : Task} {written read : task.Data}
    (supplied : Supplies resolver subset supply ⟨task, written⟩ supply')
    (silent : Action.fresh? ⟨task, read⟩ = none) :
    supply'.taken = supply.taken ∧ task.emitted? = none := by
  cases supplied with
  | skip | count | unlisted | value => cases silent
  | define | entry | attach | absent | opens | reuses | cancels | other => exact ⟨rfl, rfl⟩

theorem aligned_of_supplies (supplied : SuppliesAll resolver subset supply actions supply')
    (all : supply'.taken = subset.size) (back : List.Forall₂ Action.ReadsBack actions actions') :
    Aligned (actions.map (·.task)) (subset.vars.toList.drop supply.taken)
      (actions'.filterMap Action.fresh?) := by
  induction supplied generalizing actions' with
  | nil =>
      cases back
      have empty : subset.vars.toList.drop subset.size = [] :=
        List.drop_eq_nil_of_le (Nat.le_refl _)
      rw [all, empty]
      exact .nil
  | cons first more ih =>
      cases back with
      | cons backFirst backRest =>
          have rest := ih all backRest
          cases backFirst with
          | @mk task written read backFirst =>
              cases fresh : Action.fresh? ⟨task, read⟩ with
              | none =>
                  obtain ⟨same, silent⟩ := taken_of_supplies first fresh
                  rw [List.filterMap_cons_none fresh, ← same]
                  exact .silent silent rest
              | some u =>
                  obtain ⟨v, found, next, named, code, variableBack⟩ :=
                    variableReadsBack_of_supplies first backFirst fresh
                  obtain ⟨inside, here⟩ := Array.getElem?_eq_some_iff.1 found
                  rw [List.filterMap_cons_some fresh, List.drop_eq_getElem_cons inside,
                    Array.getElem_toList, here, ← next]
                  exact .own named code variableBack rest

end

/-! ## Subsets -/

structure Subset.ReadsBack (tasks : List Task) (written read : Subset) : Prop where
  values : Aligned tasks written.vars.toList read.vars.toList
  attributes : ∀ i v a, read.vars[i]? = some v → a ∈ v.attributes →
    ∃ field width, .attach i a.code field width ∈ tasks ∧ a.attributes = [] ∧
      Task.BothReadBack field width (written.attributeData i a.code) (a.value, a.associated)
  attached : ∀ i code field width, .attach i code field width ∈ tasks →
    ∃ v a, read.vars[i]? = some v ∧ v.attached? code = some a
  references : read.references.toList <+: written.references.toList

section

variable {resolver : Resolver} {template : Template} {subset : Subset} {supply supply' : Supply}
  {actions actions' : List Action} {x : Bits}

theorem references_of_supplies (supplied : SuppliesAll resolver subset supply actions supply')
    (back : List.Forall₂ Action.ReadsBack actions actions') :
    actions'.filterMap Action.reference? <+: subset.references.toList.drop supply.defined := by
  induction supplied generalizing actions' with
  | nil =>
      cases back
      exact List.nil_prefix
  | @cons supply supply₁ supply' action actions first more ih =>
      cases back with
      | cons backFirst backRest =>
          have rest := ih backRest
          cases backFirst with
          | @mk task written read backFirst =>
              cases first with
              | define found =>
                  cases backFirst
                  obtain ⟨inside, here⟩ := Array.getElem?_eq_some_iff.1 found
                  rw [List.drop_eq_getElem_cons inside, Array.getElem_toList, here]
                  exact (List.prefix_cons_inj _).2 rest
              | entry | skip | count | unlisted | value | attach | absent | opens | reuses | cancels
              | other => exact rest

theorem Subset.readsBack_recordAll (supplied : SuppliesAll resolver subset ⟨0, 0, []⟩ actions supply')
    (all : supply'.taken = subset.size) (back : List.Forall₂ Action.ReadsBack actions actions')
    {events : List Event} {σ : Situation} (log : Log resolver .start events actions' σ) :
    Subset.ReadsBack (actions.map (·.task)) subset (Subset.empty.recordAll actions') := by
  have recorded := vars_recordAll log
  have same := holds_recordAll log
  unfold Holds at same
  rw [List.drop_zero] at same
  have aligned := (aligned_of_supplies supplied all back).withAttributes same
  refine ⟨aligned, ?_, ?_, ?_⟩
  -- Attributes come from actions only: a fresh variable has none.
  · intro i v' a here mem
    rw [← Array.getElem?_toList, recorded, List.getElem?_mapIdx] at here
    obtain ⟨v, fresh, rfl⟩ := Option.map_eq_some_iff.1 here
    obtain ⟨action, _, own⟩ := List.mem_filterMap.1 (List.mem_of_getElem? fresh)
    rcases Variable.mem_attributes_attachAll mem with old | new
    · rw [Action.attributes_of_fresh? own] at old
      cases old
    · obtain ⟨action', mem', attached⟩ := List.mem_filterMap.1 new
      obtain ⟨code, field, width, data', rfl, rfl⟩ := Action.attributeFor?_eq_some attached
      obtain ⟨action, mem, backOne⟩ := exists_related_of_mem (List.Forall₂.flip back) mem'
      cases backOne with
      | mk backOne =>
          obtain ⟨_, _, supply⟩ := supplied.of_mem mem
          obtain ⟨_, rfl⟩ := supply.attributeData_eq
          exact ⟨field, width, List.mem_map.2 ⟨_, mem, rfl⟩, rfl, backOne⟩
  -- Of several actions for one target and code the last one is left, so there is one at least.
  · intro i code field width mem
    obtain ⟨⟨_, data⟩, mem, rfl⟩ := List.mem_map.1 mem
    obtain ⟨action', mem', backOne⟩ := exists_related_of_mem back mem
    obtain ⟨_, _, supply⟩ := supplied.of_mem mem
    cases backOne with
    | @mk _ _ read backOne =>
        have lengths := congrArg List.length aligned.codes_eq
        simp only [List.length_map, Array.length_toList] at lengths
        have inside : i < (Subset.empty.recordAll actions').vars.size :=
          lengths ▸ supply.attributeData_eq.1
        have here := Array.getElem?_eq_getElem inside
        rw [← Array.getElem?_toList, recorded, List.getElem?_mapIdx] at here
        obtain ⟨v, _, same⟩ := Option.map_eq_some_iff.1 here
        have added : { Variable.ofValue code read.1 with associated := read.2 } ∈
            attributesFor actions' i :=
          List.mem_filterMap.2 ⟨_, mem', if_pos rfl⟩
        have found : ((attributesFor actions' i).reverse.find? (·.code = code)).isSome :=
          List.find?_isSome.2 ⟨_, List.mem_reverse.2 added, decide_eq_true rfl⟩
        obtain ⟨a, attached⟩ := Option.isSome_iff_exists.1 found
        refine ⟨_, a, Array.getElem?_eq_getElem inside, ?_⟩
        rw [← same, Variable.attached?_attachAll, attached]
        rfl
  · have := references_of_supplies supplied back
    rw [Subset.references_recordAll]
    exact this

theorem Writing.exists_reading (writing : Writing resolver template subset actions x)
    (ascii : subset.isAscii) (places : ∀ action ∈ actions, action.task.HasPlaces action.data) :
    ∃ read actions', Reading resolver template read actions' x ∧
      Subset.ReadsBack (actions.map (·.task)) subset read := by
  obtain ⟨events, σ, σ', plays, log, settled⟩ := writing.logged
  obtain ⟨defined, supplied⟩ := writing.supplied
  have readable (action : Action) (mem : action ∈ actions) :
      action.task.IsSound ∧ action.task.IsAscii action.data ∧ action.task.HasPlaces action.data := by
    obtain ⟨_, _, supply⟩ := supplied.of_mem mem
    exact ⟨Situation.isSound_of_log log action mem, supply.isAscii ascii, places action mem⟩
  obtain ⟨actions', back, read⟩ := Action.reads_of_writes writing.spelled readable
  have log' := Situation.log_of_readsBack log back
  exact ⟨_, actions', ⟨⟨events, σ, σ', plays, log', settled⟩, read, rfl⟩,
    Subset.readsBack_recordAll supplied rfl back log'⟩

theorem exists_decoded {subsets : List Subset}
    (written : Bits.Spelled (Encoder.SpelledSubset resolver template) subsets x)
    (ascii : ∀ subset ∈ subsets, subset.isAscii)
    (places : ∀ subset ∈ subsets, ∀ actions x, Writing resolver template subset actions x →
      ∀ action ∈ actions, action.task.HasPlaces action.data) :
    ∃ decoded,
      List.Forall₂ (fun subset read => ∃ actions x, Writing resolver template subset actions x ∧
        Subset.ReadsBack (actions.map (·.task)) subset read) subsets decoded ∧
      ∀ count, ∃ y z, x = y ++ z ∧
        Bits.Spelled (Encoder.SpelledSubset resolver template) (subsets.take count) y ∧
        Bits.Spelled (Decoder.SpelledSubset resolver template) (decoded.take count) y := by
  induction written with
  | nil => exact ⟨[], .nil, fun count => ⟨[], [], rfl, by simpa using .nil, by simpa using .nil⟩⟩
  | @cons subset subsets x rest first more ih =>
      obtain ⟨decoded, back, spelled⟩ := ih
        (fun subset mem => ascii subset (List.mem_cons_of_mem _ mem))
        (fun subset mem => places subset (List.mem_cons_of_mem _ mem))
      obtain ⟨actions, writing⟩ := first
      obtain ⟨read, actions', reading, backFirst⟩ := writing.exists_reading
        (ascii subset List.mem_cons_self) (places subset List.mem_cons_self actions x writing)
      refine ⟨read :: decoded, .cons ⟨actions, x, writing, backFirst⟩ back, ?_⟩
      intro count
      cases count with
      | zero => exact ⟨[], x ++ rest, rfl, .nil, .nil⟩
      | succ count =>
          obtain ⟨y, z, rfl, spelledWrite, spelledRead⟩ := spelled count
          exact ⟨x ++ y, z, (List.append_assoc ..).symm, .cons ⟨actions, writing⟩ spelledWrite,
            .cons ⟨actions', reading⟩ spelledRead⟩

/-- What the encoder accepts is decoded, each subset from the bits that it was written to. No list in
memory is too long for `fit`. -/
theorem decode_encode {subsets : List Subset} {data : Octets} (fit : Subset.fit subsets.length)
    (encoded : encodeSubsets resolver template subsets = .ok data)
    (ascii : ∀ subset ∈ subsets, subset.isAscii)
    (places : ∀ subset ∈ subsets, ∀ actions x, Writing resolver template subset actions x →
      ∀ action ∈ actions, action.task.HasPlaces action.data) :
    ∃ decoded, decodeSubsets resolver template data subsets.length = .ok decoded ∧
      (∀ count ≤ subsets.length, ∃ w r,
        Encoder.writeSubsets resolver template (subsets.take count) .empty = .ok w ∧
        Decoder.readSubsets resolver template [] count (.ofOctets data) =
          .ok (decoded.take count, r) ∧
        r.position = w.written) ∧
      List.Forall₂ (fun subset read => read.codes = subset.codes ∧
        ∃ actions x, Writing resolver template subset actions x ∧
          Subset.ReadsBack (actions.map (·.task)) subset read) subsets decoded := by
  obtain ⟨x, written, rfl⟩ := encodeSubsets_ok_iff.1 encoded
  obtain ⟨decoded, back, spelled⟩ := exists_decoded written ascii places
  obtain ⟨filling, octets⟩ := ofOctets_finish_push x
  have long := back.length_eq
  refine ⟨decoded, ?_, ?_, back.imp fun subset read ⟨actions, x, writing, readBack⟩ =>
    ⟨?_, actions, x, writing, readBack⟩⟩
  · obtain ⟨y, z, rfl, _, read⟩ := spelled subsets.length
    rw [long, List.take_length] at read
    exact decodeSubsets_ok_iff.2 ⟨fit, long.symm, y, z ++ filling, read, by rw [octets, List.append_assoc]⟩
  · intro count le
    obtain ⟨y, z, rfl, write, read⟩ := spelled count
    rw [List.append_assoc, ← Bits.Reader.rest_ofOctets] at octets
    obtain ⟨r, taken⟩ := Bits.Reader.exists_takes octets
    refine ⟨_, r, Encoder.writeSubsets_ok_iff.2 ⟨y, write, rfl⟩,
      Decoder.readSubsets_ok_iff.2 ⟨_, y, rfl, ?_, read, taken⟩, ?_⟩
    · rw [List.length_take]
      omega
    · rw [taken.position, Bits.Writer.written_push]
      rfl
  · have codes := readBack.values.codes_eq
    rw [← Array.toList_map, ← Array.toList_map] at codes
    exact Array.toList_inj.1 codes

end

/-! ## A missing value that has no bits -/

def Task.PresentHasPlaces : (task : Task) → task.Data → Prop
  | value _ field _, data => data.1 = .missing ∨ field.isText ∨ field.HasPlaces
  | attach _ _ field _, data => data.1 = .missing ∨ field.isText ∨ field.HasPlaces
  | _, _ => True

def pressures : Resolver := .among [⟨.element 10 4, "PRESSURE", "Pa", 2, 0, 9, false⟩]

def widthlessChain : Chain := [.operator 1 119, .operator 2 255, .element 10 4]

def widthlessTemplate : Template := ⟨#[.operator (.operator 1 119), .operator (.operator 2 255),
  .element (.element 10 4)]⟩

def missingPressure : Subset := ⟨#[.missing (.element 10 4)], #[]⟩

theorem presentHasPlaces_missingPressure {resolver : Resolver} {template : Template}
    {actions : List Action} {x : Bits} (writing : Writing resolver template missingPressure actions x) :
    ∀ action ∈ actions, action.task.PresentHasPlaces action.data := by
  intro action mem
  obtain ⟨_, supplied⟩ := writing.supplied
  obtain ⟨_, _, supply⟩ := supplied.of_mem mem
  have only {index : Nat} {v : Variable} (found : missingPressure.vars[index]? = some v) :
      v = .missing (.element 10 4) :=
    List.mem_singleton.1 (Array.mem_def.1 (Array.mem_of_getElem? found))
  cases supply with
  | value _ found => exact Or.inl (only found ▸ rfl)
  | attach _ found attached =>
      cases only found
      cases attached
  | absent => exact Or.inl rfl
  | _ => trivial

/-- The encoder writes nothing for a missing value in a field without bits. The decoder takes it for the
reference value, at a scale that no decimal has. -/
theorem not_always_decoded :
    ¬∀ (resolver : Resolver) (chain : Chain) (template : Template) (subsets : List Subset)
        (data : Octets),
      Template.expand resolver chain = .ok template → Subset.fit subsets.length →
      encodeSubsets resolver template subsets = .ok data → (∀ subset ∈ subsets, subset.isAscii) →
      (∀ subset ∈ subsets, ∀ actions x, Writing resolver template subset actions x →
        ∀ action ∈ actions, action.task.PresentHasPlaces action.data) →
      ∃ decoded, decodeSubsets resolver template data subsets.length = .ok decoded := by
  intro always
  obtain ⟨decoded, read⟩ := always pressures widthlessChain widthlessTemplate [missingPressure] []
    (by decide +kernel) (by decide) (by decide +kernel) (by decide +kernel) fun subset mem actions x writing =>
      presentHasPlaces_missingPressure (List.mem_singleton.1 mem ▸ writing)
  have refused : decodeSubsets pressures widthlessTemplate [] 1 =
      .error (.scaleOutOfRange (.element 10 4) 129) := by decide +kernel
  cases refused.symm.trans read

/-! ## A report -/

def confidentTemplate : Template := ⟨#[.element (.element 12 101), .element (.element 1 15),
  .operator (.operator 22 0), .element .dataPresent, .element (.element 33 7)]⟩

def confidentReport : Subset := ⟨#[.ofValue (.element 12 101) (.decimal 29315 (-2)),
  { Variable.ofValue (.element 1 15) (.text "Ab ") with
    attributes := [.ofValue (.element 33 7) (.integer 70)] }], #[]⟩

theorem avoids_confidentTemplate : confidentTemplate.Avoids Operator.IsOnScale := by
  intro code op mem known
  have here : code = .operator 22 0 := by simpa [confidentTemplate] using mem
  subst here
  cases known
  rintro (⟨_, same⟩ | ⟨_, same⟩) <;> cases same

theorem decode_encode_confidentReport :
    ∃ decoded, decodeSubsets .station confidentTemplate [114, 131, 65, 98, 32, 70] 1 = .ok decoded ∧
      (∀ count ≤ 1, ∃ w r,
        Encoder.writeSubsets .station confidentTemplate ([confidentReport].take count) .empty =
          .ok w ∧
        Decoder.readSubsets .station confidentTemplate [] count
          (.ofOctets [114, 131, 65, 98, 32, 70]) = .ok (decoded.take count, r) ∧
        r.position = w.written) ∧
      List.Forall₂ (fun subset read => read.codes = subset.codes ∧
        ∃ actions x, Writing .station confidentTemplate subset actions x ∧
          Subset.ReadsBack (actions.map (·.task)) subset read) [confidentReport] decoded :=
  @decode_encode .station confidentTemplate [confidentReport] _ (by decide) (by decide +kernel)
    (by decide +kernel) fun _ _ _ _ writing =>
      writing.logged.hasPlaces Resolver.hasPlaces_station avoids_confidentTemplate

end Bufr
