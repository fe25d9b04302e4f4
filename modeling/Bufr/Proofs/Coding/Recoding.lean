import Bufr.Proofs.Coding.Rewriting

/-!
Reading, writing and reading again. Where each attribute that is left can stand in every field it was
read from, a subset that was read is written to as many bits, and these are read as the same subset.
-/

namespace Bufr

open Situation (Log)

/-! ## Attributes that are attached again -/

namespace Variable

theorem codes_attach (a : Variable) (attributes : List Variable) :
    (attach a attributes).map (·.code) =
      if a.code ∈ attributes.map (·.code) then attributes.map (·.code)
      else attributes.map (·.code) ++ [a.code] := by
  induction attributes with
  | nil => rfl
  | cons b rest ih =>
      unfold attach
      split
      next same => simp [same]
      next other =>
        rw [List.map_cons, ih, List.map_cons]
        simp only [List.mem_cons, Ne.symm other, false_or]
        split <;> rfl

theorem codes_attachAll {v v' : Variable} {as bs : List Variable}
    (start : v.attributes.map (·.code) = v'.attributes.map (·.code))
    (same : List.Forall₂ (fun a b => a.code = b.code) as bs) :
    (v.attachAll as).attributes.map (·.code) = (v'.attachAll bs).attributes.map (·.code) := by
  induction same generalizing v v' with
  | nil => exact start
  | cons first _ ih =>
      refine ih ?_
      rw [setAttribute, setAttribute, codes_attach, codes_attach, start, first]

theorem nodup_attachAll {v : Variable} (start : (v.attributes.map (·.code)).Nodup)
    (attributes : List Variable) : ((v.attachAll attributes).attributes.map (·.code)).Nodup := by
  refine attachAll_induction (P := fun v => (v.attributes.map (·.code)).Nodup) start fun v a nodup => ?_
  rw [setAttribute, codes_attach]
  split
  · exact nodup
  next fresh =>
    rw [List.nodup_append]
    exact ⟨nodup, List.pairwise_singleton _ _, fun code mem _ last same =>
      fresh (List.mem_singleton.1 last ▸ same ▸ mem)⟩

theorem attached?_of_mem {v a : Variable} (nodup : (v.attributes.map (·.code)).Nodup)
    (mem : a ∈ v.attributes) : v.attached? a.code = some a := by
  unfold attached?
  generalize v.attributes = attributes at nodup mem
  induction attributes with
  | nil => cases mem
  | cons b rest ih =>
      obtain ⟨fresh, nodup⟩ := List.nodup_cons.1 nodup
      rw [List.find?_cons]
      rcases List.mem_cons.1 mem with rfl | mem
      · rw [decide_eq_true rfl]
      · have other : b.code ≠ a.code := fun same =>
          fresh (List.mem_map.2 ⟨a, mem, same.symm⟩)
        rw [decide_eq_false other]
        exact ih nodup mem

theorem attributes_eq {v v' : Variable} (nodup : (v.attributes.map (·.code)).Nodup)
    (codes : v.attributes.map (·.code) = v'.attributes.map (·.code))
    (attached : ∀ code, v.attached? code = v'.attached? code) : v.attributes = v'.attributes := by
  have told (u : Variable) (nodup : (u.attributes.map (·.code)).Nodup) :
      u.attributes.map some = (u.attributes.map (·.code)).map u.attached? := by
    rw [List.map_map]
    exact List.map_congr_left fun a mem => (attached?_of_mem nodup mem).symm
  refine List.map_injective_iff.2 (fun a b same => Option.some.inj same) ?_
  rw [told v nodup, told v' (codes ▸ nodup), codes]
  exact List.map_congr_left fun code _ => attached code

theorem attachAll_eq (v : Variable) (attributes : List Variable) :
    v.attachAll attributes = { v with attributes := (v.attachAll attributes).attributes } := by
  induction attributes generalizing v with
  | nil => cases v; rfl
  | cons a attributes ih => exact ih (v.setAttribute a)

theorem attachAll_left {v : Variable} {attributes : List Variable} {left : Descriptor → Variable}
    (bare : v.attributes = []) (named : ∀ code, (left code).code = code)
    (found : ∀ a ∈ attributes, (v.attachAll attributes).attached? a.code = some (left a.code)) :
    v.attachAll (attributes.map (left ·.code)) = v.attachAll attributes := by
  have codes : ((v.attachAll (attributes.map (left ·.code))).attributes.map (·.code)) =
      (v.attachAll attributes).attributes.map (·.code) :=
    codes_attachAll rfl (List.forall₂_map_left_iff.2 (List.forall₂_same.2 fun a _ => named a.code))
  have nodup : (v.attributes.map (·.code)).Nodup := by
    rw [bare]
    exact List.nodup_nil
  have attached (code : Descriptor) : (v.attachAll (attributes.map (left ·.code))).attached? code =
      (v.attachAll attributes).attached? code := by
    rw [attached?_attachAll]
    cases last : (attributes.map (left ·.code)).reverse.find? (·.code = code) with
    | none =>
        rw [attached?_attachAll]
        have absent := List.find?_eq_none.1 last
        have absent' : attributes.reverse.find? (·.code = code) = none := by
          refine List.find?_eq_none.2 fun a mem same => ?_
          refine absent (left a.code)
            (List.mem_reverse.2 (List.mem_map.2 ⟨a, List.mem_reverse.1 mem, rfl⟩)) ?_
          rw [named]
          exact same
        rw [absent']
    | some b =>
        obtain ⟨a, mem, rfl⟩ := List.mem_map.1 (List.mem_reverse.1 (List.mem_of_find?_eq_some last))
        have same : (left a.code).code = code := by simpa using List.find?_some last
        rw [named] at same
        rw [← same, found a mem]
        rfl
  rw [attachAll_eq v, attributes_eq (nodup_attachAll nodup _) codes attached, ← attachAll_eq v]

end Variable

/-! ## The same subset -/

section

variable {resolver : Resolver} {template : Template} {subset : Subset} {σ σ' : Situation}
  {events : List Event} {actions redone : List Action} {x : Bits}

theorem Subset.size_record_le (subset : Subset) (action : Action) :
    subset.size ≤ (subset.record action).size := by
  obtain ⟨task, data⟩ := action
  cases task <;> simp [record, Subset.size, push]

theorem Subset.size_recordAll_le (subset : Subset) (actions : List Action) :
    subset.size ≤ (subset.recordAll actions).size := by
  induction actions generalizing subset with
  | nil => exact Nat.le_refl _
  | cons action actions ih => exact (subset.size_record_le action).trans (ih _)

theorem Subset.target_lt (log : Log resolver σ events actions σ') (bounded : σ.Bounded)
    (codes : σ.codes = subset.codes) {action : Action} (mem : action ∈ actions) {index : Nat}
    {a : Variable} (attached : action.attributeFor? index = some a) :
    index < (subset.recordAll actions).size := by
  induction log generalizing subset with
  | nil => cases mem
  | @cons σ σ₁ σ' event events task actions data taskOk log ih =>
      rcases List.mem_cons.1 mem with rfl | mem
      · have inside := lt_of_attributeFor? bounded taskOk attached
        rw [Decoder.size_codes codes] at inside
        exact Nat.lt_of_lt_of_le inside (subset.size_recordAll_le (⟨task, data⟩ :: actions))
      · have bounded' := (bounded.step (Situation.step_of_task taskOk)).record data
        exact ih bounded' (Decoder.codes_follow codes taskOk data) mem

theorem Subset.exists_attached (log : Log resolver .start events actions σ') {action : Action}
    (mem : action ∈ actions) {index : Nat} {a : Variable}
    (attached : action.attributeFor? index = some a) :
    ∃ v b, (Subset.empty.recordAll actions).vars[index]? = some v ∧ v.attached? a.code = some b ∧
      b.code = a.code ∧ b.attributes = [] := by
  have inside := target_lt log Situation.bounded_start codes_start mem attached
  have here : (Subset.empty.recordAll actions).vars[index]? = some _ := Array.getElem?_eq_getElem inside
  have recorded := here
  rw [← Array.getElem?_toList, vars_recordAll log, List.getElem?_mapIdx] at recorded
  obtain ⟨v, _, same⟩ := Option.map_eq_some_iff.1 recorded
  have added : a ∈ attributesFor actions index := List.mem_filterMap.2 ⟨_, mem, attached⟩
  have found : ((attributesFor actions index).reverse.find? (·.code = a.code)).isSome :=
    List.find?_isSome.2 ⟨_, List.mem_reverse.2 added, decide_eq_true rfl⟩
  obtain ⟨b, last⟩ := Option.isSome_iff_exists.1 found
  refine ⟨_, b, here, ?_, by simpa using List.find?_some last, ?_⟩
  · rw [← same, Variable.attached?_attachAll, last]
    rfl
  · obtain ⟨_, _, attached⟩ := List.mem_filterMap.1 (List.mem_reverse.1 (List.mem_of_find?_eq_some last))
    obtain ⟨_, _, _, _, _, rfl⟩ := Action.attributeFor?_eq_some attached
    rfl

def Subset.leftAttribute (subset : Subset) (index : Nat) (code : Descriptor) : Variable :=
  { Variable.ofValue code (subset.attributeData index code).1 with
    associated := (subset.attributeData index code).2 }

theorem Action.fresh?_of_redone {action action' : Action} (again : action.Redone subset action') :
    action'.fresh? = action.fresh? := by
  obtain @⟨task, read, redone, again⟩ := again
  cases task <;> first | rfl | exact again ▸ rfl

theorem Action.reference?_of_redone {action action' : Action} (again : action.Redone subset action') :
    action'.reference? = action.reference? := by
  obtain @⟨task, read, redone, again⟩ := again
  cases task <;> first | rfl | exact again ▸ rfl

theorem Action.attributeFor?_of_redone {action action' : Action} (again : action.Redone subset action')
    (index : Nat) :
    action'.attributeFor? index =
      (action.attributeFor? index).map (subset.leftAttribute index ·.code) := by
  obtain @⟨task, read, redone, again⟩ := again
  cases task with
  | attach target code field width =>
      cases again
      simp only [Action.attributeFor?]
      split
      next here => cases here; rfl
      next => rfl
  | _ => rfl

theorem filterMap_redone {α : Type} {f g : Action → Option α}
    (each : ∀ action action', action.Redone subset action' → g action' = f action)
    (again : List.Forall₂ (Action.Redone subset) actions redone) :
    redone.filterMap g = actions.filterMap f := by
  induction again with
  | nil => rfl
  | cons first _ ih => rw [List.filterMap_cons, List.filterMap_cons, each _ _ first, ih]

theorem Subset.recordAll_redone (log : Log resolver .start events actions σ)
    (log' : Log resolver .start events redone σ') (recorded : subset = Subset.empty.recordAll actions)
    (again : List.Forall₂ (Action.Redone subset) actions redone) :
    Subset.empty.recordAll redone = subset := by
  have fresh := filterMap_redone (f := Action.fresh?) (fun _ _ => Action.fresh?_of_redone) again
  have references := filterMap_redone (f := Action.reference?) (fun _ _ => Action.reference?_of_redone) again
  have left (index : Nat) : attributesFor redone index =
      (attributesFor actions index).map (subset.leftAttribute index ·.code) := by
    unfold attributesFor
    rw [List.map_filterMap]
    exact filterMap_redone (fun _ _ same => Action.attributeFor?_of_redone same index) again
  have vars : (Subset.empty.recordAll redone).vars.toList = subset.vars.toList := by
    rw [vars_recordAll log', fresh, recorded, vars_recordAll log]
    refine List.mapIdx_eq_mapIdx_iff.2 fun index inside => ?_
    rw [left]
    have mem := List.getElem_mem inside
    obtain ⟨action, _, own⟩ := List.mem_filterMap.1 mem
    refine Variable.attachAll_left (Action.attributes_of_fresh? own) (fun _ => rfl) fun a mem => ?_
    obtain ⟨action, mem, attached⟩ := List.mem_filterMap.1 mem
    obtain ⟨v, b, here, found, named, bare⟩ := exists_attached log mem attached
    have left : (Subset.empty.recordAll actions).leftAttribute index a.code = b := by
      unfold leftAttribute attributeData
      rw [here, Option.bind_some, found, ← named]
      cases b
      cases bare
      rfl
    rw [← Array.getElem?_toList, vars_recordAll log, List.getElem?_mapIdx,
      List.getElem?_eq_getElem inside, Option.map_some] at here
    cases here
    rw [found, recorded, left]
  have all := Subset.references_recordAll Subset.empty redone
  rw [references, ← Subset.references_recordAll Subset.empty actions, ← recorded] at all
  exact congrArg₂ Subset.mk (Array.toList_inj.1 vars) (Array.toList_inj.1 all)

/-! ## The same bits in number -/

/-- Each attribute can stand in every field that it was read from. -/
def Subset.FitsAttributes (subset : Subset) (actions : List Action) : Prop :=
  ∀ target code field width data, ⟨.attach target code field width, data⟩ ∈ actions →
    ∃ x, field.ReadsBoth width x (subset.attributeData target code)

theorem Field.readsBoth_of_reads {field : Field} {v : Value} (read : field.Reads x v) :
    field.ReadsBoth 0 x (v, none) :=
  Field.readsBoth_zero_iff.2 ⟨rfl, read⟩

theorem Field.length_of_readsBoth {field : Field} {width : Nat} {data : Value × Option Nat}
    (read : field.ReadsBoth width x data) : x.length = width + field.bits := by
  obtain ⟨y, z, rfl, associated, value⟩ := read
  rw [List.length_append, associated.2.1, Field.length_of_reads value]

theorem Action.writes_of_redone {action action' : Action} (again : action.Redone subset action')
    (read : action.Reads x) (sound : action.task.IsSound) (narrow : action.task.IsNarrow)
    (fits : subset.FitsAttributes [action]) :
    ∃ y, action'.Writes y ∧ action'.Reads y ∧ y.length = x.length := by
  obtain @⟨task, data, redone, again⟩ := again
  cases task with
  | entry =>
      cases read
      exact ⟨[!redone], rfl, rfl, rfl⟩
  | attach target code field width =>
      obtain ⟨x', read'⟩ := fits target code field width data (List.mem_singleton.2 rfl)
      cases again
      obtain ⟨y, written, readAgain, long⟩ := Task.writesBoth_of_reads read' sound narrow
      refine ⟨y, written, readAgain, long.trans ?_⟩
      rw [Field.length_of_readsBoth read', Field.length_of_readsBoth read]
  | _ => exact again ▸ Task.writes_of_reads read sound narrow

theorem Action.spelled_of_redone (again : List.Forall₂ (Action.Redone subset) actions redone)
    (read : Bits.Spelled Action.Reads actions x) (sound : ∀ action ∈ actions, action.task.IsSound)
    (narrow : ∀ action ∈ actions, action.task.IsNarrow) (fits : subset.FitsAttributes actions) :
    ∃ y, Bits.Spelled Action.Writes redone y ∧ Bits.Spelled Action.Reads redone y ∧
      y.length = x.length := by
  induction again generalizing x with
  | nil =>
      cases read
      exact ⟨[], .nil, .nil, rfl⟩
  | @cons action action' actions redone first _ ih =>
      cases read with
      | cons read more =>
          obtain ⟨y, written, readAgain, long⟩ := Action.writes_of_redone first read
            (sound _ List.mem_cons_self) (narrow _ List.mem_cons_self) fun target code field width data mem =>
              fits target code field width data (List.mem_singleton.1 mem ▸ List.mem_cons_self)
          obtain ⟨z, writtenRest, readRest, longRest⟩ := ih more
            (fun action mem => sound action (List.mem_cons_of_mem _ mem))
            (fun action mem => narrow action (List.mem_cons_of_mem _ mem))
            fun target code field width data mem =>
              fits target code field width data (List.mem_cons_of_mem _ mem)
          refine ⟨y ++ z, .cons written writtenRest, .cons readAgain readRest, ?_⟩
          rw [List.length_append, List.length_append, long, longRest]

def Subset.RestoresAll (resolver : Resolver) (template : Template) (subset : Subset)
    (actions : List Action) : Prop :=
  ∃ events σ σ', (Walk.start template).Plays resolver events ∧
    subset.Restores resolver .start [] events actions σ ∧ σ.settle = .ok σ'

def Subset.Rewritten (resolver : Resolver) (template : Template) (subset : Subset) (x : Bits) : Prop :=
  ∃ actions y, Writing resolver template subset actions y ∧
    Reading resolver template subset actions y ∧ y.length = x.length

theorem Situation.resembles_start : Resembles [] [] actions .start .start :=
  ⟨rfl, rfl, rfl, rfl, rfl, nofun, .idle rfl⟩

theorem Reading.isWord (reading : Reading resolver template subset actions x) :
    ∀ action ∈ actions, action.task.IsWord := by
  have spelled := reading.spelled
  clear reading
  induction spelled with
  | nil => exact nofun
  | cons first _ ih => exact List.forall_mem_cons.2 ⟨Task.isWord_of_reads first, ih⟩

theorem Subset.RestoresAll.rewritten (restores : subset.RestoresAll resolver template actions)
    (reading : Reading resolver template subset actions x) (foresees : subset.Foresees resolver 0 actions)
    (narrow : ∀ action ∈ actions, action.task.IsNarrow) (fits : subset.FitsAttributes actions) :
    subset.Rewritten resolver template x := by
  obtain ⟨events, σ, σ', plays, restores, settled⟩ := restores
  have log := restores.log
  have recorded := reading.recorded
  have stores : subset.Stores resolver 0 0 actions := by
    refine ⟨Nat.zero_le _, foresees, recorded ▸ holds_recordAll log, ?_, reading.isWord, ?_⟩
    · rw [recorded, Subset.references_recordAll]
      rfl
    · intro target code field width data mem
      obtain ⟨v, b, here, found, _⟩ := exists_attached log mem
        (show Action.attributeFor? target _ = some _ from if_pos rfl)
      exact ⟨v, b, recorded ▸ here, found⟩
  obtain ⟨redone, σ₁, defined, log', again, supplied, σ₂, settled'⟩ :=
    @Restores.redoes resolver subset [] ⟨0, 0, []⟩ events actions .start .start σ restores
      Situation.resembles_start Situation.regular_start rfl stores ⟨σ', settled⟩
  obtain ⟨y, written, read, long⟩ := Action.spelled_of_redone again reading.spelled
    (Situation.isSound_of_log log) narrow fits
  have logged : Situation.Logged resolver template redone := ⟨events, σ₁, σ₂, plays, log', settled'⟩
  exact ⟨redone, y, ⟨logged, written, defined, supplied⟩,
    ⟨logged, read, (recordAll_redone log log' recorded again).symm⟩, long⟩

theorem encode_of_rewritten {subsets : List Subset} (fit : Subset.fit subsets.length)
    (each : Bits.Spelled (Subset.Rewritten resolver template) subsets x) :
    ∃ bytes, encodeSubsets resolver template subsets = .ok bytes ∧
      bytes.length = (x.length + 7) / 8 ∧
      decodeSubsets resolver template bytes subsets.length = .ok subsets := by
  obtain ⟨y, written, read, long⟩ : ∃ y,
      Bits.Spelled (Encoder.SpelledSubset resolver template) subsets y ∧
      Bits.Spelled (Decoder.SpelledSubset resolver template) subsets y ∧ y.length = x.length := by
    clear fit
    induction each with
    | nil => exact ⟨[], .nil, .nil, rfl⟩
    | cons first _ ih =>
        obtain ⟨actions, y, writing, reading, long⟩ := first
        obtain ⟨z, written, read, longRest⟩ := ih
        refine ⟨y ++ z, .cons ⟨actions, writing⟩ written, .cons ⟨actions, reading⟩ read, ?_⟩
        rw [List.length_append, List.length_append, long, longRest]
  obtain ⟨filling, octets⟩ := ofOctets_finish_push y
  refine ⟨_, encodeSubsets_ok_iff.2 ⟨y, written, rfl⟩, ?_,
    decodeSubsets_ok_iff.2 ⟨fit, rfl, y, filling, read, octets⟩⟩
  rw [Bits.Writer.length_finish, Bits.Writer.written_push, long]
  exact congrArg (fun n => (n + 7) / 8) (Nat.zero_add x.length)

/-! ## What the decoder performs -/

def Decoder.Performs (resolver : Resolver) (template : Template) (r : Bits.Reader)
    (performed : List (List Action)) (r' : Bits.Reader) : Prop :=
  ∃ x, Bits.Spelled (fun actions => Reading resolver template (Subset.empty.recordAll actions) actions)
    performed x ∧ r.Takes x r'

theorem Decoder.Performs.reading {r r' : Bits.Reader} {performed : List (List Action)}
    (performs : Performs resolver template r performed r') (mem : actions ∈ performed) :
    ∃ x, Reading resolver template (Subset.empty.recordAll actions) actions x := by
  obtain ⟨_, spelled, taken⟩ := performs
  clear taken
  induction spelled with
  | nil => cases mem
  | cons first _ ih =>
      rcases List.mem_cons.1 mem with rfl | mem
      · exact ⟨_, first⟩
      · exact ih mem

theorem Decoder.readSubsets_ok_iff_performs {r r' : Bits.Reader} {count : Nat} {subsets : List Subset} :
    readSubsets resolver template [] count r = .ok (subsets, r') ↔
      ∃ performed, Performs resolver template r performed r' ∧ performed.length = count ∧
        subsets = performed.map Subset.empty.recordAll := by
  rw [readSubsets_ok_iff]
  simp only [List.reverse_nil, List.nil_append]
  constructor
  · rintro ⟨read, x, rfl, long, spelled, taken⟩
    obtain ⟨performed, each, rfl⟩ : ∃ performed, Bits.Spelled (fun actions =>
        Reading resolver template (Subset.empty.recordAll actions) actions) performed x ∧
          subsets = performed.map Subset.empty.recordAll := by
      clear long taken
      induction spelled with
      | nil => exact ⟨[], .nil, rfl⟩
      | cons first _ ih =>
          obtain ⟨actions, reading⟩ := first
          obtain ⟨performed, each, rfl⟩ := ih
          cases reading.recorded
          exact ⟨actions :: performed, .cons reading each, rfl⟩
    exact ⟨performed, ⟨x, each, taken⟩, (List.length_map _).symm.trans long, rfl⟩
  · rintro ⟨performed, ⟨x, each, taken⟩, long, rfl⟩
    refine ⟨_, x, rfl, (List.length_map _).trans long, ?_, taken⟩
    clear long taken
    induction each with
    | nil => exact .nil
    | cons first _ ih => exact .cons ⟨_, first⟩ ih

theorem decodeSubsets_ok_iff_performs {data : Octets} {count : Nat} {subsets : List Subset} :
    decodeSubsets resolver template data count = .ok subsets ↔
      Subset.fit count ∧ ∃ performed r,
        Decoder.Performs resolver template (.ofOctets data) performed r ∧ performed.length = count ∧
          subsets = performed.map Subset.empty.recordAll := by
  unfold decodeSubsets
  split
  next fit =>
    simp only [map_eq_ok_iff, Prod.exists, Decoder.readSubsets_ok_iff_performs, fit, true_and]
    constructor
    · rintro ⟨_, r, ⟨performed, performs, all, rfl⟩, rfl⟩
      exact ⟨performed, r, performs, all, rfl⟩
    · rintro ⟨performed, r, performs, all, rfl⟩
      exact ⟨_, r, ⟨performed, performs, all, rfl⟩, rfl⟩
  next unfit => simp [unfit]

theorem encode_of_performed {data : Octets} {count : Nat} {subsets : List Subset} {r : Bits.Reader}
    {performed : List (List Action)}
    (decoded : decodeSubsets resolver template data count = .ok subsets)
    (performs : Decoder.Performs resolver template (.ofOctets data) performed r)
    (all : performed.length = count)
    (each : ∀ actions ∈ performed, ∀ x,
      Reading resolver template (Subset.empty.recordAll actions) actions x →
        (Subset.empty.recordAll actions).Rewritten resolver template x) :
    Decoder.readSubsets resolver template [] count (.ofOctets data) = .ok (subsets, r) ∧
      ∃ bytes, encodeSubsets resolver template subsets = .ok bytes ∧
        bytes.length = (r.position + 7) / 8 ∧
        decodeSubsets resolver template bytes count = .ok subsets := by
  have read := Decoder.readSubsets_ok_iff_performs.2 ⟨performed, performs, all, rfl⟩
  have fit := (decodeSubsets_ok_iff.1 decoded).1
  unfold decodeSubsets at decoded
  rw [if_pos fit, read] at decoded
  cases decoded
  refine ⟨read, ?_⟩
  obtain ⟨x, spelled, taken⟩ := performs
  have rewritten : Bits.Spelled (Subset.Rewritten resolver template)
      (performed.map Subset.empty.recordAll) x := by
    clear read all taken
    induction spelled with
    | nil => exact .nil
    | cons reading _ ih =>
        exact .cons (each _ List.mem_cons_self _ reading)
          (ih fun actions mem => each actions (List.mem_cons_of_mem _ mem))
  have long : (performed.map Subset.empty.recordAll).length = count := by rw [List.length_map, all]
  obtain ⟨bytes, encoded, octets, again⟩ := encode_of_rewritten (long.symm ▸ fit) rewritten
  refine ⟨bytes, encoded, ?_, long ▸ again⟩
  rw [octets, taken.position]
  exact congrArg (fun n => (n + 7) / 8) (Nat.zero_add x.length).symm

end

end Bufr
