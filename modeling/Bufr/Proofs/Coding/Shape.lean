import Bufr.Proofs.Coding.Operators
import Bufr.Proofs.Coding.Recoding
import Bufr.Proofs.Coding.Referrals
import Bufr.Proofs.Template.Bodies

/-!
What all decoded subsets have in common. An attribute is plain, its code is one of few and stands once
on its variable, and that variable is an element outside class 31. What a step has put into a variable
stays there; later steps can only attach to it.
-/

namespace Bufr

/-! ## Codes -/

namespace Descriptor

theorem isReferable_iff {d : Descriptor} : d.isReferable ↔ d.f = 0 ∧ d.x ≠ 31 := by
  rw [isReferable, isQualifier, Bool.and_eq_true, Bool.not_eq_true', Bool.and_eq_false_imp]
  simp only [beq_iff_eq, beq_eq_false_iff_ne]
  exact and_congr_right fun same => ⟨fun other => other same, fun other _ => other⟩

theorem f_of_kind {d : Descriptor} (narrow : d.f ≤ 3) :
    (d.kind = .element → d.f = 0) ∧ (d.kind = .operator → d.f = 2) := by
  rw [UInt8.le_iff_toNat_le] at narrow
  have whole : d.f.toNat % 4 = d.f.toNat := Nat.mod_eq_of_lt (Nat.lt_succ_of_le narrow)
  unfold kind
  rw [whole, ← UInt8.toNat_inj, ← UInt8.toNat_inj]
  split <;> simp_all

end Descriptor

/-- The value that a marker stands for has its code: 2 23 255, 2 24 255, 2 25 255 or 2 32 255. -/
def markers : List Descriptor :=
  [.operator 23 255, .operator 24 255, .operator 25 255, .operator 32 255]

theorem mem_markers {code : Descriptor} {kind : BitmapKind} (operator : code.f = 2)
    (op : Operator.ofDescriptor code = .ok (.marker kind)) : code ∈ markers := by
  obtain ⟨f, x, y⟩ := code
  obtain ⟨rfl, rfl, other⟩ := Operator.marker_of_ofDescriptor op
  cases operator
  cases kind with
  | quality => exact absurd rfl other
  | substituted | firstOrder | difference | replaced => decide

/-! ## Variables -/

namespace Variable

structure IsAttribute (a : Variable) : Prop where
  plain : a.attributes = []
  coded : a.code.f = 0 ∧ a.code.x = 33 ∨ a.code ∈ markers ∧ a.associated = none

structure IsShaped (v : Variable) : Prop where
  distinct : (v.attributes.map (·.code)).Nodup
  attributes : ∀ a ∈ v.attributes, a.IsAttribute
  carrier : v.attributes ≠ [] → v.code.f = 0 ∧ v.code.x ≠ 31

structure IsCount (v : Variable) : Prop where
  code : v.code.isCount
  associated : v.associated = none
  value : ∃ n : Int64, v.value = .integer n ∧ 0 ≤ n.toInt

variable {v a : Variable}

theorem isShaped_of_nil (bare : v.attributes = []) : v.IsShaped where
  distinct := by rw [bare]; exact List.nodup_nil
  attributes := by rw [bare]; exact List.forall_mem_nil _
  carrier some := absurd bare some

theorem IsCount.attachAll (counts : v.IsCount) (attributes : List Variable) :
    (v.attachAll attributes).IsCount where
  code := by rw [code_attachAll]; exact counts.code
  associated := by rw [associated_attachAll]; exact counts.associated
  value := by rw [value_attachAll]; exact counts.value

theorem IsShaped.setAttribute (shaped : v.IsShaped) (isAttribute : a.IsAttribute)
    (referable : v.code.isReferable) : (v.setAttribute a).IsShaped where
  distinct := nodup_attachAll shaped.distinct [a]
  attributes b mem := by
    rcases mem_attach mem with rfl | mem
    · exact isAttribute
    · exact shaped.attributes b mem
  carrier _ := Descriptor.isReferable_iff.1 referable

end Variable

namespace Subset

def Grows (before after : Subset) : Prop :=
  ∀ (index : Nat) (v : Variable), before.vars[index]? = some v →
    ∃ attributes, after.vars[index]? = some (v.attachAll attributes)

theorem Grows.refl (subset : Subset) : subset.Grows subset :=
  fun _ _ here => ⟨[], here⟩

theorem Grows.trans {first second third : Subset} (one : first.Grows second)
    (two : second.Grows third) : first.Grows third := by
  intro index v here
  obtain ⟨attributes, here⟩ := one index v here
  obtain ⟨more, here⟩ := two index _ here
  refine ⟨attributes ++ more, ?_⟩
  rwa [Variable.attachAll, List.foldl_append]

theorem grows_record (subset : Subset) (action : Action) : subset.Grows (subset.record action) := by
  intro index v here
  cases fresh : action.fresh? with
  | some u =>
      obtain ⟨inside, same⟩ := Array.getElem?_eq_some_iff.1 here
      refine ⟨[], ?_⟩
      rw [record_of_fresh? fresh, Array.getElem?_push_lt inside, same]
      rfl
  | none => exact ⟨_, by rw [getElem?_record fresh, here, Option.map_some]⟩

theorem size_record (subset : Subset) (action : Action) :
    (subset.record action).size = subset.size + action.task.emitted?.toList.length := by
  have codes := congrArg Array.size (codes_record subset action)
  cases emitted : action.task.emitted? <;>
    simpa [emitted, Subset.codes, Subset.size] using codes

theorem isShaped_record {subset : Subset} {action : Action}
    (shaped : ∀ v ∈ subset.vars, v.IsShaped)
    (attached : ∀ (index : Nat) (a v : Variable), action.attributeFor? index = some a →
      subset.vars[index]? = some v → a.IsAttribute ∧ v.code.isReferable) :
    ∀ v ∈ (subset.record action).vars, v.IsShaped := by
  intro v mem
  cases fresh : action.fresh? with
  | some u =>
      rw [record_of_fresh? fresh] at mem
      rcases Array.mem_push.1 mem with mem | rfl
      · exact shaped v mem
      · exact Variable.isShaped_of_nil (Action.attributes_of_fresh? fresh)
  | none =>
      obtain ⟨index, here⟩ := Array.mem_iff_getElem?.1 mem
      rw [getElem?_record fresh] at here
      obtain ⟨u, old, rfl⟩ := Option.map_eq_some_iff.1 here
      have before := shaped u (Array.mem_of_getElem? old)
      cases given : action.attributeFor? index with
      | none => exact before
      | some a =>
          obtain ⟨isAttribute, referable⟩ := attached index a u given old
          exact before.setAttribute isAttribute referable

end Subset

/-! ## Steps -/

def Event.IsSpelled : Event → Prop
  | .element code => code.f = 0
  | .operator _ code => code.f = 2
  | .count .. => True

namespace Situation

variable {resolver : Resolver} {σ σ' : Situation} {event : Event} {task : Task}

theorem isReferable_of_nextTarget (refers : σ.RefersBack) {target : Nat} {code : Descriptor}
    (found : σ.nextTarget = .ok (target, code, σ')) :
    σ.codes[target]? = some code ∧ code.isReferable := by
  obtain ⟨bitmap, bitmapOk, here, -⟩ := nextTarget_ok_iff.1 found
  obtain ⟨code', here', isReferable⟩ := refers.eligible target (refers.refersTo.of_target bitmapOk)
  cases here.symm.trans here'
  exact ⟨here, isReferable⟩

theorem isAttribute_of_step (step : Step resolver σ event task σ') (refers : σ.RefersBack)
    (spelled : event.IsSpelled) {data : task.Data} {x : Bits} (read : task.Reads x data)
    {index : Nat} {a : Variable} (attached : Action.attributeFor? index ⟨task, data⟩ = some a) :
    a.IsAttribute ∧ ∃ code, σ.codes[index]? = some code ∧ code.isReferable := by
  obtain ⟨_, _, _, _, same, rfl⟩ := Action.attributeFor?_eq_some attached
  cases same
  have codes {σ₁ : Situation} (settled : σ.settle = .ok σ₁) : σ₁.codes = σ.codes := by
    obtain ⟨_, -, rfl⟩ := settle_ok_iff.1 settled
    rfl
  cases step with
  | quality begins _ _ _ takes found =>
      have known := isReferable_of_nextTarget ((refers.settle begins.settled).withModifiers _) found
      rw [← codes begins.settled]
      refine ⟨⟨rfl, Or.inl ⟨spelled, ?_⟩⟩, _, known⟩
      rw [Bitmap.takesElement, Bool.and_eq_true, Bool.and_eq_true, beq_iff_eq] at takes
      exact takes.1.1
  | marker op settled _ found =>
      have known := isReferable_of_nextTarget (refers.settle settled) found
      rw [← codes settled]
      obtain ⟨_, _, _, associated, -⟩ := read
      exact ⟨⟨rfl, Or.inr ⟨mem_markers spelled op, associated.2.2⟩⟩, _, known⟩

theorem emitted?_of_entry (step : Step resolver σ (.element .dataPresent) task σ')
    (collecting : σ.bitmap.isCollecting) : task.emitted? = none := by
  cases step with
  | define | entry | quality => rfl
  | unlisted begins | skip begins | value begins => exact absurd ⟨rfl, collecting⟩ begins.noEntry

end Situation

namespace Decoder

variable {resolver : Resolver} {template : Template} {reader : Bits.Reader} {walk walk' rest : Walk}
  {event : Event} {s s' : Decoder} {code : Descriptor}

theorem grows_of_answers (answered : (coder resolver).Answers event s s') :
    s.subset.Grows s'.subset := by
  obtain ⟨task, _, data, _, _, -, -, -, rfl⟩ := follows_of_answers answered
  exact s.subset.grows_record ⟨task, data⟩

theorem size_of_answers (answered : (coder resolver).Answers event s s') :
    s'.subset.size = s.subset.size ∨ s'.subset.size = s.subset.size + 1 := by
  obtain ⟨task, _, data, _, _, -, -, -, rfl⟩ := follows_of_answers answered
  have size := s.subset.size_record ⟨task, data⟩
  cases emitted : task.emitted? with
  | none => exact Or.inl (by simpa [emitted] using size)
  | some code => exact Or.inr (by simpa [emitted] using size)

theorem isShaped_of_answers (refers : s.situation.RefersBack)
    (shaped : ∀ v ∈ s.subset.vars, v.IsShaped) (answered : (coder resolver).Answers event s s')
    (spelled : event.IsSpelled) : ∀ v ∈ s'.subset.vars, v.IsShaped := by
  obtain ⟨task, _, data, x, _, taskOk, read, -, rfl⟩ := follows_of_answers answered
  refine Subset.isShaped_record shaped fun index a v attached here => ?_
  obtain ⟨isAttribute, code, known, referable⟩ :=
    Situation.isAttribute_of_step (Situation.step_of_task taskOk) refers spelled read attached
  have same : s.situation.codes[index]? = some v.code := by
    rw [situation, Subset.codes, Array.getElem?_map, here, Option.map_some]
  cases known.symm.trans same
  exact ⟨isAttribute, referable⟩

theorem size_of_entry (collecting : s.bitmap.isCollecting)
    (answered : (coder resolver).Answers (.element .dataPresent) s s') :
    s'.subset.size = s.subset.size := by
  obtain ⟨task, _, data, _, _, taskOk, -, -, rfl⟩ := follows_of_answers answered
  have silent := Situation.emitted?_of_entry (Situation.step_of_task taskOk) collecting
  simpa [silent] using s.subset.size_record ⟨task, data⟩

theorem subset_emit (s : Decoder) (v : Variable) : (s.emit v).subset = s.subset.push v := by
  unfold emit refer
  split <;> rfl

theorem isCount_of_answers {replication : Descriptor} {passes : UInt64} (isCount : code.isCount)
    (answered : (coder resolver).Answers (.count replication code passes) s s') :
    ∃ v : Variable, s'.subset.vars[s.subset.size]? = some v ∧ v.IsCount := by
  obtain ⟨info, -, counted⟩ := bind_eq_ok.1 answered
  obtain ⟨⟨raw, r⟩, -, counted⟩ := bind_eq_ok.1 counted
  simp only at counted
  split at counted
  · cases counted
  next positive =>
    cases counted
    refine ⟨.ofValue code (.integer (Int64.ofInt (raw + info.reference))), ?_, isCount, rfl, _, rfl,
      Int.not_lt.1 positive⟩
    rw [subset_emit]
    exact Array.getElem?_push_size

/-! ## On the way through a template -/

theorem grows_of_reaches (reached : (coder resolver).Reaches resolver (walk, s) (walk', s')) :
    s.subset.Grows s'.subset := by
  refine Coder.invariant_of_reaches (P := fun _ s' => s.subset.Grows s'.subset) (.refl _) ?_ reached
  intro _ s₁ _ s₂ _ grows stepped
  rcases Coder.answers_of_step stepped with rfl | ⟨event, answered⟩
  · exact grows
  · exact grows.trans (grows_of_answers answered)

theorem isShaped_of_reaches (spelled : ∀ op ∈ template.ops, op.IsSpelled)
    (narrow : ∀ op ∈ template.ops, op.code.f ≤ 3)
    (reached : (coder resolver).Reaches resolver (.start template, .start reader) (walk, s)) :
    walk.template = template ∧ ∀ v ∈ s.subset.vars, v.IsShaped := by
  refine Coder.invariant_of_reaches (P := fun walk s => walk.template = template ∧
    ∀ v ∈ s.subset.vars, v.IsShaped) ?_ ?_ reached
  · exact ⟨rfl, fun v mem => absurd mem (Array.not_mem_empty v)⟩
  · rintro walk₁ s₁ walk₂ s₂ reached ⟨same, shaped⟩ stepped
    have refers := refersBack_of_reaches reached
    cases Coder.steps_of_step stepped with
    | element next answered =>
        have mem := same ▸ Walk.mem_ops_of_next next
        exact ⟨(Walk.template_of_next next).trans same, isShaped_of_answers refers shaped answered
          ((Descriptor.f_of_kind (narrow _ mem)).1 (spelled _ mem))⟩
    | operator next answered =>
        have mem := same ▸ Walk.mem_ops_of_next next
        exact ⟨(Walk.template_of_next next).trans same, isShaped_of_answers refers shaped answered
          ((Descriptor.f_of_kind (narrow _ mem)).2 (spelled _ mem))⟩
    | fixed next _ replicated =>
        exact ⟨(Walk.template_of_replicate replicated).trans ((Walk.template_of_next next).trans same),
          shaped⟩
    | delayed next _ nextCount _ answered replicated =>
        refine ⟨?_, isShaped_of_answers refers shaped answered trivial⟩
        rw [Walk.template_of_replicate replicated, Walk.template_of_next nextCount,
          Walk.template_of_next next, same]

def Emits (resolver : Resolver) (template : Template) (reader : Bits.Reader) (index : Nat)
    (op : Opcode) (before : Decoder) : Prop :=
  ∃ walk rest walk' after,
    (coder resolver).Reaches resolver (.start template, .start reader) (walk, before) ∧
      walk.next = some (op, rest) ∧
      (coder resolver).step resolver walk before = .ok (some walk', after) ∧
      before.subset.size = index ∧ after.subset.size = index + 1

theorem exists_emits
    (reached : (coder resolver).Reaches resolver (.start template, .start reader) (walk, s)) :
    ∀ index < s.subset.size, ∃ op before, Emits resolver template reader index op before := by
  refine Coder.invariant_of_reaches (P := fun _ s => ∀ index < s.subset.size, ∃ op before,
    Emits resolver template reader index op before) ?_ ?_ reached
  · exact fun index inside => absurd inside (Nat.not_lt_zero index)
  · intro walk₁ s₁ walk₂ s₂ reached emitted stepped index inside
    rcases Nat.lt_or_ge index s₁.subset.size with old | new
    · exact emitted index old
    have size : s₂.subset.size = s₁.subset.size ∨ s₂.subset.size = s₁.subset.size + 1 := by
      rcases Coder.answers_of_step stepped with rfl | ⟨_, answered⟩
      · exact Or.inl rfl
      · exact size_of_answers answered
    have next : ∃ op rest, walk₁.next = some (op, rest) := by
      cases Coder.steps_of_step stepped with
      | element next | operator next | fixed next | delayed next => exact ⟨_, _, next⟩
    obtain ⟨op, rest, next⟩ := next
    exact ⟨op, s₁, walk₁, rest, walk₂, s₂, reached, next, stepped, by omega, by omega⟩

theorem isCount_of_emits {op : Opcode} {index : Nat}
    (emits : Emits resolver template reader index op s) :
    ¬(op = .element .dataPresent ∧ s.bitmap.isCollecting) ∧
      ∀ code span, op = .replication code span → ∃ walk' s' v,
        (coder resolver).Reaches resolver (.start template, .start reader) (walk', s') ∧
          s'.subset.vars[index]? = some v ∧ v.IsCount := by
  obtain ⟨walk, rest, walk', after, reached, here, stepped, rfl, longer⟩ := emits
  have reached' : (coder resolver).Reaches resolver (.start template, .start reader)
      (walk', after) := reached.tail stepped
  refine ⟨?_, ?_⟩
  · rintro ⟨rfl, collecting⟩
    cases Coder.steps_of_step stepped with
    | element next answered =>
        cases here.symm.trans next
        have := size_of_entry collecting answered
        omega
    | operator next | fixed next | delayed next => cases here.symm.trans next
  · rintro code span rfl
    cases Coder.steps_of_step stepped with
    | fixed => omega
    | delayed _ _ _ isCount answered =>
        obtain ⟨v, found, counts⟩ := isCount_of_answers isCount answered
        exact ⟨walk', after, v, reached', found, counts⟩
    | element next | operator next => cases here.symm.trans next

end Decoder

/-! ## Subsets -/

/-- What is known of a subset that was read over a template, whatever the data. -/
structure Subset.IsShaped (resolver : Resolver) (template : Template) (reader : Bits.Reader)
    (subset : Subset) : Prop where
  shaped : ∀ v ∈ subset.vars, v.IsShaped
  emitted : ∀ index < subset.size, ∃ op before,
    Decoder.Emits resolver template reader index op before
  noEntry : ∀ index before, before.bitmap.isCollecting →
    ¬Decoder.Emits resolver template reader index (.element .dataPresent) before
  counts : ∀ index code span before v,
    Decoder.Emits resolver template reader index (.replication code span) before →
    subset.vars[index]? = some v → v.IsCount

namespace Decoder

variable {resolver : Resolver} {template : Template} {reader behind : Bits.Reader} {subset : Subset}

theorem isShaped_of_readSubset (spelled : ∀ op ∈ template.ops, op.IsSpelled)
    (narrow : ∀ op ∈ template.ops, op.code.f ≤ 3)
    (read : readSubset resolver template reader = .ok (subset, behind)) :
    subset.IsShaped resolver template reader := by
  obtain ⟨s, ran, read⟩ := bind_eq_ok.1 read
  obtain ⟨s', settled, same⟩ := bind_eq_ok.1 read
  obtain ⟨bitmap, -, settled⟩ := bind_eq_ok.1 settled
  cases settled
  cases same
  obtain ⟨walk, reached, -⟩ := Coder.reaches_of_run ran
  have emitted := exists_emits reached
  refine ⟨(isShaped_of_reaches spelled narrow reached).2, emitted, ?_, ?_⟩
  · exact fun index before collecting emits => (isCount_of_emits emits).1 ⟨rfl, collecting⟩
  · intro index code span before v emits here
    obtain ⟨walk', s', u, reached', found, counts⟩ := (isCount_of_emits emits).2 code span rfl
    -- There is only one way through the subset, so the last state lies behind this one.
    rw [Coder.run_of_reaches reached'] at ran
    obtain ⟨_, further, -⟩ := Coder.reaches_of_run ran
    obtain ⟨attributes, last⟩ := grows_of_reaches further index u found
    cases here.symm.trans last
    exact counts.attachAll attributes

theorem exists_readSubset {count : Nat} {done subsets : List Subset}
    (read : readSubsets resolver template done count reader = .ok (subsets, behind)) :
    ∀ subset ∈ subsets, subset ∈ done ∨
      ∃ reader behind, readSubset resolver template reader = .ok (subset, behind) := by
  induction count generalizing done reader with
  | zero =>
      cases read
      exact fun subset mem => Or.inl (List.mem_reverse.1 mem)
  | succ count ih =>
      rw [readSubsets] at read
      split at read
      · cases read
      next first middle one =>
        intro subset mem
        rcases ih read subset mem with mem | found
        · rcases List.mem_cons.1 mem with rfl | mem
          · exact Or.inr ⟨_, _, one⟩
          · exact Or.inl mem
        · exact Or.inr found

end Decoder

theorem Subset.isShaped_of_decodeSubsets {resolver : Resolver} {chain : Chain} {template : Template}
    {data : Octets} {count : Nat} {subsets : List Subset} (narrow : ∀ d ∈ chain, d.f ≤ 3)
    (sequences : ∀ d elements, resolver.sequence d = .ok elements → ∀ e ∈ elements, e.f ≤ 3)
    (expanded : Template.expand resolver chain = .ok template)
    (decoded : decodeSubsets resolver template data count = .ok subsets) :
    ∀ subset ∈ subsets, ∃ reader behind,
      Decoder.readSubset resolver template reader = .ok (subset, behind) ∧
        subset.IsShaped resolver template reader := by
  have expands := Expands.of_expand expanded
  have spelled (op) (mem : op ∈ template.ops) : op.IsSpelled :=
    expands.wellFormed.spelled op (Array.mem_toList_iff.2 mem)
  have narrow (op) (mem : op ∈ template.ops) : op.code.f ≤ 3 :=
    expands.flattens.forall_mem sequences narrow _
      (List.mem_map_of_mem (Array.mem_toList_iff.2 mem))
  intro subset mem
  unfold decodeSubsets at decoded
  split at decoded
  next =>
    obtain ⟨⟨_, behind⟩, read, rfl⟩ := map_eq_ok_iff.1 decoded
    rcases Decoder.exists_readSubset read subset mem with none | ⟨reader, behind, one⟩
    · cases none
    · exact ⟨reader, behind, one, Decoder.isShaped_of_readSubset spelled narrow one⟩
  next => cases decoded

def Resolver.confident : Resolver := { Resolver.station with
  sequence := fun d =>
    if d = .sequence 1 1 then .ok [.operator 22 0, .replication 1 2, .element 31 31, .element 33 7]
    else .error (.unknownSequence d) }

def temperaturesChain : Chain :=
  [.replication 1 0, .element 31 1, .element 12 101, .sequence 1 1]

def temperaturesTemplate : Template := ⟨#[.replication (.replication 1 0) 1,
  .element (.element 31 1), .element (.element 12 101), .operator (.operator 22 0),
  .replication (.replication 1 2) 1, .element .dataPresent, .element (.element 33 7)]⟩

def twoTemperatures : Subset := ⟨#[
  .ofValue (.element 31 1) (.integer 2), .ofValue (.element 12 101) (.decimal 27315 (-2)),
  { Variable.ofValue (.element 12 101) (.decimal 27314 (-2)) with
    attributes := [.ofValue (.element 33 7) (.integer 34)] }], #[]⟩

theorem Subset.isShaped_twoTemperatures :
    decodeSubsets .confident temperaturesTemplate [2, 106, 179, 106, 178, 145, 0] 1 =
        .ok [twoTemperatures] ∧
      ∃ reader behind,
        Decoder.readSubset .confident temperaturesTemplate reader = .ok (twoTemperatures, behind) ∧
          twoTemperatures.IsShaped .confident temperaturesTemplate reader := by
  have sequences (d : Descriptor) (elements : Chain)
      (named : Resolver.confident.sequence d = .ok elements) : ∀ e ∈ elements, e.f ≤ 3 := by
    simp only [Resolver.confident] at named
    split at named
    · cases named
      decide
    · cases named
  have expanded : Template.expand .confident temperaturesChain = .ok temperaturesTemplate := by
    decide +kernel
  have decoded : decodeSubsets .confident temperaturesTemplate [2, 106, 179, 106, 178, 145, 0] 1 =
      .ok [twoTemperatures] := by
    decide +kernel
  exact ⟨decoded, Subset.isShaped_of_decodeSubsets (by decide) sequences expanded decoded
    twoTemperatures (List.mem_singleton.2 rfl)⟩

end Bufr
