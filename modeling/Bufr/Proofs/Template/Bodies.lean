import Bufr.Proofs.Template.Expands

/-!
Expanded templates by position. No sequence is left, and the descriptors are those of the chain with
every sequence spelled out. A replication, its count and its body are a stretch of the template; of
two stretches the later one is behind the earlier one or in its body.
-/

namespace Bufr

variable {resolver : Resolver} {chain rest flat flat' : Chain}

inductive Flattens (resolver : Resolver) : Chain → Chain → Prop where
  | nil : Flattens resolver [] []
  | sequence {d elements rest inner flat} (kind : d.kind = .sequence)
      (named : resolver.sequence d = .ok elements) (below : Flattens resolver elements inner)
      (more : Flattens resolver rest flat) : Flattens resolver (d :: rest) (inner ++ flat)
  | other {d rest flat} (kind : d.kind ≠ .sequence) (more : Flattens resolver rest flat) :
      Flattens resolver (d :: rest) (d :: flat)

namespace Flattens

theorem append (first : Flattens resolver chain flat) (second : Flattens resolver rest flat') :
    Flattens resolver (chain ++ rest) (flat ++ flat') := by
  induction first with
  | nil => exact second
  | sequence kind named below _ _ ih =>
      rw [List.cons_append, List.append_assoc]
      exact .sequence kind named below ih
  | other kind _ ih => exact .other kind ih

theorem unique (first : Flattens resolver chain flat) (second : Flattens resolver chain flat') :
    flat' = flat := by
  induction first generalizing flat' with
  | nil =>
      cases second
      rfl
  | sequence kind named _ _ ihBelow ih =>
      cases second with
      | sequence _ named' below more =>
          cases named.symm.trans named'
          rw [ihBelow below, ih more]
      | other other => exact absurd kind other
  | other kind _ ih =>
      cases second with
      | sequence other => exact absurd other kind
      | other _ more => rw [ih more]

theorem forall_mem {P : Descriptor → Prop}
    (sequences : ∀ d elements, resolver.sequence d = .ok elements → ∀ e ∈ elements, P e)
    (flattens : Flattens resolver chain flat) (all : ∀ d ∈ chain, P d) : ∀ d ∈ flat, P d := by
  induction flattens with
  | nil => exact all
  | sequence _ named _ _ ihBelow ih =>
      obtain ⟨-, others⟩ := List.forall_mem_cons.1 all
      exact List.forall_mem_append.2 ⟨ihBelow (sequences _ _ named), ih others⟩
  | other _ _ ih =>
      obtain ⟨here, others⟩ := List.forall_mem_cons.1 all
      exact List.forall_mem_cons.2 ⟨here, ih others⟩

end Flattens

theorem Descriptor.kind_of_isQualifier {d : Descriptor} (qualifier : d.isQualifier) :
    d.kind = .element := by
  obtain ⟨f, x, y⟩ := d
  rw [Descriptor.isQualifier, Bool.and_eq_true, beq_iff_eq, beq_iff_eq] at qualifier
  cases qualifier.1
  rfl

theorem Expands.flattens {steps : List Opcode} (expands : Expands resolver chain steps) :
    Flattens resolver chain (steps.map Opcode.code) := by
  induction expands with
  | nil => exact .nil
  | element kind _ ih | operator kind _ ih => exact .other (kind ▸ nofun) ih
  | sequence kind named _ _ ihBelow ih =>
      rw [List.map_append]
      exact .sequence kind named ihBelow ih
  | fixed kind _ _ _ _ ihBelow ih =>
      rw [List.map_cons, List.map_append]
      refine .other (kind ▸ nofun) ?_
      simpa only [List.take_append_drop] using ihBelow.append ih
  | delayed kind _ qualifier _ _ _ ihBelow ih =>
      rw [List.map_cons, List.map_cons, List.map_append]
      refine .other (kind ▸ nofun) (.other (Descriptor.kind_of_isQualifier qualifier ▸ nofun) ?_)
      simpa only [List.take_append_drop] using ihBelow.append ih

/-- Steps up to the body of a replication: itself and, if it is delayed, its count. -/
def Resolver.lead (resolver : Resolver) (code : Descriptor) : Nat :=
  match resolver.repetition code with
  | .ok ⟨_, true⟩ => 2
  | _ => 1

theorem Resolver.lead_pos (resolver : Resolver) (code : Descriptor) : 0 < resolver.lead code := by
  unfold lead
  split <;> decide

def Opcode.IsSpelled : Opcode → Prop
  | .element code => code.kind = .element
  | .replication code _ => code.kind = .replication
  | .operator code => code.kind = .operator

def HasBody (resolver : Resolver) (steps : List Opcode) (position start stop : Nat) : Prop :=
  ∃ code span, steps[position]? = some (.replication code span) ∧
    start = position + resolver.lead code ∧ stop = start + span

structure WellFormed (resolver : Resolver) (steps : List Opcode) : Prop where
  spelled : ∀ op ∈ steps, op.IsSpelled
  counted : ∀ ⦃i code span⦄, steps[i]? = some (.replication code span) →
    ∃ repetition, resolver.repetition code = .ok repetition ∧
      (repetition.delayed → ∃ count, steps[i + 1]? = some (.element count) ∧ count.isQualifier)
  inside : ∀ ⦃i start stop⦄, HasBody resolver steps i start stop → stop ≤ steps.length
  /-- The later replication is behind the earlier one's body, or all of it is inside. -/
  nested : ∀ ⦃i j start stop start' stop'⦄, i < j → HasBody resolver steps i start stop →
    HasBody resolver steps j start' stop' → stop ≤ j ∨ start ≤ j ∧ stop' ≤ stop

section Positions

variable {steps others : List Opcode} {op : Opcode} {code : Descriptor}
  {position start stop span : Nat}

theorem HasBody.lt_start (body : HasBody resolver steps position start stop) :
    position < start ∧ start ≤ stop := by
  obtain ⟨code, span, -, rfl, rfl⟩ := body
  exact ⟨Nat.lt_add_of_pos_right (resolver.lead_pos code), Nat.le_add_right _ _⟩

theorem HasBody.lt_length (body : HasBody resolver steps position start stop) :
    position < steps.length := by
  obtain ⟨code, span, here, -, -⟩ := body
  exact (List.getElem?_eq_some_iff.1 here).1

theorem hasBody_cons (body : HasBody resolver (op :: others) position start stop) :
    (position = 0 ∧ HasBody resolver [op] 0 start stop) ∨
      ∃ i s e, position = i + 1 ∧ start = s + 1 ∧ stop = e + 1 ∧ HasBody resolver others i s e := by
  obtain ⟨code, span, here, rfl, rfl⟩ := body
  cases position with
  | zero => exact Or.inl ⟨rfl, code, span, here, rfl, rfl⟩
  | succ i => exact Or.inr ⟨i, _, _, rfl, by omega, by omega, code, span, here, rfl, rfl⟩

theorem hasBody_append (body : HasBody resolver (steps ++ others) position start stop) :
    HasBody resolver steps position start stop ∨
      ∃ i s e, position = steps.length + i ∧ start = steps.length + s ∧ stop = steps.length + e ∧
        HasBody resolver others i s e := by
  obtain ⟨code, span, here, rfl, rfl⟩ := body
  rcases Nat.lt_or_ge position steps.length with before | behind
  · rw [List.getElem?_append_left before] at here
    exact Or.inl ⟨code, span, here, rfl, rfl⟩
  · rw [List.getElem?_append_right behind] at here
    refine Or.inr ⟨position - steps.length, _, _, by omega, ?_, ?_, code, span, here, rfl, rfl⟩
      <;> omega

end Positions

namespace WellFormed

variable {steps others : List Opcode} {op : Opcode} {code : Descriptor} {span : Nat}

theorem nil : WellFormed resolver [] where
  spelled := List.forall_mem_nil _
  counted := nofun
  inside _ _ _ found := absurd found.lt_length (Nat.not_lt_zero _)
  nested _ _ _ _ _ _ _ found := absurd found.lt_length (Nat.not_lt_zero _)

theorem append (first : WellFormed resolver steps) (second : WellFormed resolver others) :
    WellFormed resolver (steps ++ others) where
  spelled := List.forall_mem_append.2 ⟨first.spelled, second.spelled⟩
  counted i code span here := by
    rcases Nat.lt_or_ge i steps.length with before | behind
    · rw [List.getElem?_append_left before] at here
      obtain ⟨repetition, answered, counted⟩ := first.counted here
      refine ⟨repetition, answered, fun delayed => ?_⟩
      obtain ⟨count, next, qualifier⟩ := counted delayed
      refine ⟨count, ?_, qualifier⟩
      rwa [List.getElem?_append_left (List.getElem?_eq_some_iff.1 next).1]
    · rw [List.getElem?_append_right behind] at here
      obtain ⟨repetition, answered, counted⟩ := second.counted here
      refine ⟨repetition, answered, fun delayed => ?_⟩
      obtain ⟨count, next, qualifier⟩ := counted delayed
      refine ⟨count, ?_, qualifier⟩
      rwa [List.getElem?_append_right (by omega), Nat.sub_add_comm behind]
  inside i start stop found := by
    rw [List.length_append]
    rcases hasBody_append found with one | ⟨i, s, e, rfl, rfl, rfl, one⟩
    · exact Nat.le_trans (first.inside one) (Nat.le_add_right _ _)
    · exact Nat.add_le_add_left (second.inside one) _
  nested i j start stop start' stop' before found found' := by
    rcases hasBody_append found with one | ⟨i, s, e, rfl, rfl, rfl, one⟩
    · rcases hasBody_append found' with two | ⟨j, s', e', rfl, rfl, rfl, two⟩
      · exact first.nested before one two
      · have := first.inside one
        exact Or.inl (by omega)
    · rcases hasBody_append found' with two | ⟨j, s', e', rfl, rfl, rfl, two⟩
      · have := two.lt_length
        omega
      · have := second.nested (by omega) one two
        omega

theorem single (resolver : Resolver) (spelled : op.IsSpelled)
    (plain : ∀ code span, op ≠ .replication code span) : WellFormed resolver [op] := by
  have none {i span : Nat} {code} (here : [op][i]? = some (Opcode.replication code span)) :
      False := by
    rw [List.getElem?_singleton] at here
    split at here
    · exact plain code span (Option.some.inj here)
    · cases here
  exact {
    spelled := List.forall_mem_singleton.2 spelled
    counted := fun _ _ _ here => (none here).elim
    inside := fun _ _ _ ⟨_, _, here, _⟩ => (none here).elim
    nested := fun _ _ _ _ _ _ _ ⟨_, _, here, _⟩ => (none here).elim }

theorem enclose (own : WellFormed resolver steps) (kind : code.kind = .replication)
    {repetition : Repetition} (answered : resolver.repetition code = .ok repetition)
    (counted : repetition.delayed →
      ∃ count, steps[0]? = some (.element count) ∧ count.isQualifier)
    (fits : 1 + steps.length = resolver.lead code + span)
    (behind : ∀ ⦃i start stop⦄, HasBody resolver steps i start stop → resolver.lead code ≤ i + 1) :
    WellFormed resolver (.replication code span :: steps) := by
  have itself {start stop} (found : HasBody resolver [.replication code span] 0 start stop) :
      start = resolver.lead code ∧ stop = 1 + steps.length := by
    obtain ⟨_, _, here, rfl, rfl⟩ := found
    cases here
    exact ⟨Nat.zero_add _, by omega⟩
  refine ⟨List.forall_mem_cons.2 ⟨kind, own.spelled⟩, ?_, ?_, ?_⟩
  · intro i code' span' here
    cases i with
    | zero =>
        cases here
        exact ⟨repetition, answered, counted⟩
    | succ i => exact own.counted here
  · intro i start stop found
    rw [List.length_cons]
    rcases hasBody_cons found with ⟨-, one⟩ | ⟨i, s, e, rfl, rfl, rfl, one⟩
    · have := itself one
      omega
    · exact Nat.succ_le_succ (own.inside one)
  · intro i j start stop start' stop' before found found'
    rcases hasBody_cons found' with ⟨rfl, -⟩ | ⟨j, s', e', rfl, rfl, rfl, two⟩
    · exact absurd before (Nat.not_lt_zero i)
    rcases hasBody_cons found with ⟨rfl, one⟩ | ⟨i, s, e, rfl, rfl, rfl, one⟩
    · have := itself one
      have := behind two
      have := own.inside two
      omega
    · have := own.nested (by omega) one two
      omega

theorem not_operator_before (wellFormed : WellFormed resolver steps) {position start stop : Nat}
    (body : HasBody resolver steps position start stop) :
    ∃ before op, start = before + 1 ∧ steps[before]? = some op ∧ ∀ code, op ≠ .operator code := by
  obtain ⟨code, span, here, rfl, -⟩ := body
  obtain ⟨⟨passes, delayed⟩, answered, counted⟩ := wellFormed.counted here
  cases delayed with
  | false =>
      have lead : resolver.lead code = 1 := by rw [Resolver.lead, answered]
      exact ⟨position, _, congrArg (position + ·) lead, here, nofun⟩
  | true =>
      have lead : resolver.lead code = 2 := by rw [Resolver.lead, answered]
      obtain ⟨count, hereCount, -⟩ := counted rfl
      exact ⟨position + 1, _, congrArg (position + ·) lead, hereCount, nofun⟩

end WellFormed

theorem Expands.wellFormed {steps : List Opcode} (expands : Expands resolver chain steps) :
    WellFormed resolver steps := by
  induction expands with
  | nil => exact .nil
  | @element d _ _ kind _ ih =>
      have spelled : (Opcode.element d).IsSpelled := kind
      exact (WellFormed.single resolver spelled nofun).append ih
  | @operator d _ _ kind _ ih =>
      have spelled : (Opcode.operator d).IsSpelled := kind
      exact (WellFormed.single resolver spelled nofun).append ih
  | sequence _ _ _ _ ihBelow ih => exact ihBelow.append ih
  | @fixed d _ _ _ _ kind counted _ _ _ ihBelow ih =>
      have lead : resolver.lead d = 1 := by rw [Resolver.lead, counted]
      refine WellFormed.append (ihBelow.enclose kind counted nofun ?_ ?_) ih
      · rw [lead]
      · intro i _ _ _
        rw [lead]
        exact Nat.le_add_left 1 i
  | @delayed d _ count _ body _ kind counted qualifier _ _ _ ihBelow ih =>
      have lead : resolver.lead d = 2 := by rw [Resolver.lead, counted]
      have spelled : (Opcode.element count).IsSpelled := Descriptor.kind_of_isQualifier qualifier
      have own := (WellFormed.single resolver spelled nofun).append ihBelow
      refine WellFormed.append (own.enclose kind counted (fun _ => ⟨count, rfl, qualifier⟩) ?_ ?_) ih
      · rw [lead, List.singleton_append, List.length_cons]
        omega
      · intro i start stop found
        rcases hasBody_cons found with ⟨-, _, _, here, -⟩ | ⟨i, _, _, rfl, -⟩
        · cases here
        · omega

end Bufr
