import Bufr.Proofs.Report.Attributes

/-!
Every bitmap of a report is told by its attributes, so that none of them is lost when the report is all
that is left.
-/

namespace Bufr

variable {resolver : Resolver} {template : Template} {subset : Subset} {position : Nat}
  {rest : List Opcode} {actions : List Action} {codes : List Descriptor} {kind : BitmapKind}
  {kind? : Option BitmapKind} {phase : Bitmap.Phase} {block : BitmapBlock}
  {blocks : List BitmapBlock} {observations : List (Observation resolver)}

/-! ## Attributes tell their bitmaps -/

namespace Lookahead

end Lookahead

theorem Modifiers.associatedWidthOf_none (code : Descriptor) :
    Modifiers.none.associatedWidthOf code = 0 := by
  unfold associatedWidthOf
  split <;> rfl

theorem Situation.nextTarget_behind {targets : Array Nat} {used i : Nat}
    (first : targets[used % targets.size]? = some i) (here : codes[i]? = some target) :
    (behind codes (some kind) (.selected targets used)).nextTarget =
      .ok (i, target, behind codes (some kind) (.selected targets (used + 1))) := by
  exact nextTarget_ok_iff.2 ⟨_, Bitmap.nextTarget_ok_iff.2 ⟨_, _, rfl, first, rfl⟩,
    by simpa [behind] using here, rfl⟩

theorem Subset.RestoresFrom.attach {targets : Array Nat} {used i : Nat} {data : Value × Option Nat}
    (here : template.ops.toList.drop position = kind.step code :: rest)
    (settled : (Situation.behind codes (some kind) phase).settle =
      .ok (.behind codes (some kind) (.selected targets used)))
    (first : targets[used % targets.size]? = some i) (known : codes[i]? = some target)
    (fieldFor : kind.FieldFor resolver code target field)
    (more : subset.RestoresFrom resolver template (position + 1)
      (.behind codes (some kind) (.selected targets (used + 1))) actions) :
    subset.RestoresFrom resolver template position (.behind codes (some kind) phase)
      (⟨.attach i code field 0, data⟩ :: actions) := by
  have found := @Situation.nextTarget_behind codes kind _ _ _ _ first known
  cases fieldFor with
  | quality x elementOk fieldOk =>
      have begins : (Situation.behind codes (some .quality) phase).Begins code
          (.behind codes (some .quality) (.selected targets used)) := by
        refine ⟨rfl, ?_, settled⟩
        rintro ⟨rfl, _⟩
        cases x
      have takes : (Situation.behind codes (some .quality) (.selected targets used)).bitmap.takesElement
          code := by
        simp [Bitmap.takesElement, Situation.behind, Bitmap.isSelected, x]
      have step := Situation.Step.quality begins elementOk rfl fieldOk takes found
      rw [Modifiers.associatedWidthOf_none] at step
      exact .element here rfl rfl step more
  | marker other fieldOk =>
      have op : Operator.ofDescriptor kind.marker = .ok (.marker kind) := by
        cases kind <;> first | rfl | exact absurd rfl other
      have isOperator : kind.step kind.marker = .operator kind.marker := by
        cases kind <;> first | rfl | exact absurd rfl other
      rw [isOperator] at here
      have step := @Situation.Step.marker resolver _ _ _ ⟨template, position + 1, []⟩ _ kind i target
        field .none op settled rfl found fieldOk
      exact .operator here rfl rfl step (by rintro ⟨⟩) (by rintro _ _ _ ⟨⟩) more

theorem Subset.RestoresFrom.values {targets front back : List Nat} {rounds : Nat}
    {field : Nat → Field} {data : Nat → Value × Option Nat}
    (here : template.ops.toList.drop position = List.replicate back.length (kind.step code) ++ rest)
    (all : targets = front ++ back)
    (settled : (Situation.behind codes (some kind) phase).settle = .ok (.behind codes (some kind)
      (.selected targets.toArray (rounds * targets.length + front.length))))
    (fieldFor : ∀ i ∈ back, ∃ target, codes[i]? = some target ∧
      kind.FieldFor resolver code target (field i))
    (more : ∀ phase, (Situation.behind codes (some kind) phase).settle = .ok (.behind codes (some kind)
        (.selected targets.toArray ((rounds + 1) * targets.length))) →
      subset.RestoresFrom resolver template (position + back.length)
        (.behind codes (some kind) phase) actions) :
    subset.RestoresFrom resolver template position (.behind codes (some kind) phase)
      (back.map (fun i => ⟨.attach i code (field i) 0, data i⟩) ++ actions) := by
  induction back generalizing front position phase with
  | nil =>
      refine more phase ?_
      rw [settled, all, List.append_nil, Nat.add_mul, Nat.one_mul]
  | cons i back ih =>
      obtain ⟨⟨target, known, first⟩, others⟩ := List.forall_mem_cons.1 fieldFor
      have turn : targets.toArray[(rounds * targets.length + front.length) % targets.toArray.size]? =
          some i := by
        have inside : front.length < targets.length := by
          rw [all, List.length_append, List.length_cons]
          omega
        rw [List.size_toArray, Nat.mul_add_mod_self_right, Nat.mod_eq_of_lt inside,
          List.getElem?_toArray, all, List.getElem?_append_right (Nat.le_refl _), Nat.sub_self,
          List.getElem?_cons_zero]
      have later := @ih (position + 1)
        (.selected targets.toArray (rounds * targets.length + front.length + 1)) (front ++ [i])
      refine .attach here settled turn known first (later (Walk.drop_succ here)
        (by rw [all, List.append_assoc, List.singleton_append]) ?_ others fun phase settled => ?_)
      · rw [Situation.settle_behind_selected, List.length_append, List.length_singleton,
          ← Nat.add_assoc]
      · have behind := more phase settled
        rwa [List.length_cons, Nat.add_comm back.length, ← Nat.add_assoc] at behind

theorem Subset.RestoresFrom.rounds {kind : BitmapKind} {given : List Descriptor} {targets : List Nat}
    {rounds : Nat} {field : Descriptor → Nat → Field} {value : Descriptor → Nat → Value}
    (here : template.ops.toList.drop position =
      given.flatMap (fun code => List.replicate targets.length (kind.step code)) ++ rest)
    (settled : (Situation.behind codes (some kind) phase).settle =
      .ok (.behind codes (some kind) (.selected targets.toArray (rounds * targets.length))))
    (fieldFor : ∀ code ∈ given, ∀ i ∈ targets, ∃ target, codes[i]? = some target ∧
      kind.FieldFor resolver code target (field code i))
    (more : ∀ phase σ, (Situation.behind codes (some kind) phase).settle = .ok (.behind codes (some kind) σ) →
      subset.RestoresFrom resolver template (position + given.length * targets.length)
        (.behind codes (some kind) phase) actions) :
    subset.RestoresFrom resolver template position (.behind codes (some kind) phase)
      (given.flatMap (fun code => targets.map fun i =>
        ⟨.attach i code (field code i) 0, (value code i, none)⟩) ++ actions) := by
  induction given generalizing rounds position phase with
  | nil =>
      rw [List.length_nil, Nat.zero_mul] at more
      exact more phase _ settled
  | cons code given ih =>
      obtain ⟨first, others⟩ := List.forall_mem_cons.1 fieldFor
      rw [List.flatMap_cons, List.append_assoc] at here
      rw [List.flatMap_cons, List.append_assoc]
      refine RestoresFrom.values here (List.nil_append targets).symm settled first fun phase settled => ?_
      have behind := Walk.drop_append here
      rw [List.length_replicate] at behind
      refine ih behind settled others fun phase σ settled => ?_
      have last := more phase σ settled
      rwa [List.length_cons, Nat.add_mul, Nat.one_mul, Nat.add_comm (_ * _), ← Nat.add_assoc] at last

/-! ## Restoring a report -/

end Bufr
