import Bufr.Template.Expansion

/-!
What expansion makes of a chain, by recursion on the chain. Levels are left out: they only make sure
that the recursion ends.
-/

namespace Bufr

inductive Expands (resolver : Resolver) : Chain → List Opcode → Prop where
  | nil : Expands resolver [] []
  | element {d rest steps} (kind : d.kind = .element) (more : Expands resolver rest steps) :
      Expands resolver (d :: rest) (.element d :: steps)
  | operator {d rest steps} (kind : d.kind = .operator) (more : Expands resolver rest steps) :
      Expands resolver (d :: rest) (.operator d :: steps)
  | sequence {d elements rest inner steps} (kind : d.kind = .sequence)
      (named : resolver.sequence d = .ok elements) (below : Expands resolver elements inner)
      (more : Expands resolver rest steps) : Expands resolver (d :: rest) (inner ++ steps)
  | fixed {d passes rest body steps} (kind : d.kind = .replication)
      (counted : resolver.repetition d = .ok ⟨passes, false⟩) (long : d.x.toNat ≤ rest.length)
      (below : Expands resolver (rest.take d.x.toNat) body)
      (more : Expands resolver (rest.drop d.x.toNat) steps) :
      Expands resolver (d :: rest) (.replication d body.length :: (body ++ steps))
  | delayed {d unused count rest body steps} (kind : d.kind = .replication)
      (counted : resolver.repetition d = .ok ⟨unused, true⟩) (qualifier : count.isQualifier)
      (long : d.x.toNat ≤ rest.length) (below : Expands resolver (rest.take d.x.toNat) body)
      (more : Expands resolver (rest.drop d.x.toNat) steps) :
      Expands resolver (d :: count :: rest)
        (.replication d body.length :: .element count :: (body ++ steps))

namespace Expands

variable {resolver : Resolver}

theorem of_delayedCount {d : Descriptor} {repetition : Repetition} {chain behind : Chain}
    {count body : Array Opcode} {steps : List Opcode} (kind : d.kind = .replication)
    (counted : resolver.repetition d = .ok repetition)
    (found : Template.delayedCount d repetition.delayed chain = .ok (count, behind))
    {front others : Chain} (window : Template.window? d.x.toNat behind = some (front, others))
    (below : Expands resolver front body.toList) (more : Expands resolver others steps) :
    Expands resolver (d :: chain)
      (.replication d body.size :: (count.toList ++ (body.toList ++ steps))) := by
  obtain ⟨passes, delayed⟩ := repetition
  obtain ⟨length, rfl⟩ := Template.window?_eq_some window
  have long : d.x.toNat ≤ (front ++ others).length := by
    rw [List.length_append]
    omega
  have taken : (front ++ others).take d.x.toNat = front := List.take_left' length
  have dropped : (front ++ others).drop d.x.toNat = others := List.drop_left' length
  rw [← taken] at below
  rw [← dropped] at more
  rw [← Array.length_toList]
  unfold Template.delayedCount at found
  split at found
  next isDelayed =>
    cases isDelayed
    split at found
    · cases found
    split at found
    next qualifier =>
      cases found
      exact .delayed kind counted qualifier long below more
    · cases found
  next isFixed =>
    cases Bool.eq_false_iff.2 isFixed
    cases found
    exact .fixed kind counted long below more

theorem of_expandLevel {deeper : Chain → Except Error (Array Opcode)}
    (below : ∀ chain steps, deeper chain = .ok steps → Expands resolver chain steps.toList)
    {done steps : Array Opcode} {chain : Chain}
    (h : Template.expandLevel resolver deeper done chain = .ok steps) :
    ∃ more, Expands resolver chain more ∧ steps.toList = done.toList ++ more := by
  fun_induction Template.expandLevel resolver deeper done chain with
  | case1 done =>
      cases h
      exact ⟨[], .nil, (List.append_nil _).symm⟩
  | case2 done d rest kind ih =>
      obtain ⟨more, expands, same⟩ := ih h
      exact ⟨_, .element kind expands, by simp [same]⟩
  | case3 done d rest kind ih =>
      obtain ⟨more, expands, same⟩ := ih h
      exact ⟨_, .operator kind expands, by simp [same]⟩
  | case6 done d rest kind elements found inner deeperOk ih =>
      obtain ⟨more, expands, same⟩ := ih h
      exact ⟨_, .sequence kind found (below _ _ deeperOk) expands, by simp [same]⟩
  | case11 done d rest kind repetition counted count others counts body rest' window inner deeperOk ih =>
      obtain ⟨more, expands, same⟩ := ih h
      have one := of_delayedCount kind counted counts window (below _ _ deeperOk) expands
      exact ⟨_, one, by simp [same]⟩
  | case4 | case5 | case7 | case8 | case9 | case10 => cases h

theorem of_expandLevels {levels : Nat} {chain : Chain} {steps : Array Opcode}
    (h : Template.expandLevels resolver levels chain = .ok steps) :
    Expands resolver chain steps.toList := by
  induction levels generalizing chain steps with
  | zero => cases h
  | succ levels ih =>
      obtain ⟨more, expands, same⟩ := of_expandLevel (fun _ _ => ih) h
      rw [same]
      exact expands

theorem of_expand {chain : Chain} {template : Template}
    (h : Template.expand resolver chain = .ok template) :
    Expands resolver chain template.ops.toList := by
  unfold Template.expand at h
  cases levels : Template.expandLevels resolver (Template.maxDepth + 1) chain with
  | error e =>
      rw [levels] at h
      cases h
  | ok steps =>
      rw [levels] at h
      cases h
      exact of_expandLevels levels

theorem unique {chain : Chain} {steps steps' : List Opcode} (first : Expands resolver chain steps)
    (second : Expands resolver chain steps') : steps' = steps := by
  induction first generalizing steps' with
  | nil =>
      cases second
      rfl
  | element kind _ ih =>
      cases second with
      | element _ more => rw [ih more]
      | operator other | sequence other | fixed other | delayed other => cases kind.symm.trans other
  | operator kind _ ih =>
      cases second with
      | operator _ more => rw [ih more]
      | element other | sequence other | fixed other | delayed other => cases kind.symm.trans other
  | sequence kind named _ _ ihBelow ih =>
      cases second with
      | sequence _ named' below more =>
          cases named.symm.trans named'
          rw [ihBelow below, ih more]
      | element other | operator other | fixed other | delayed other => cases kind.symm.trans other
  | fixed kind counted _ _ _ ihBelow ih =>
      cases second with
      | fixed _ _ _ below more => rw [ihBelow below, ih more]
      | delayed _ counted' => cases counted.symm.trans counted'
      | element other | operator other | sequence other => cases kind.symm.trans other
  | delayed kind counted _ _ _ _ ihBelow ih =>
      cases second with
      | delayed _ _ _ _ below more => rw [ihBelow below, ih more]
      | fixed _ counted' => cases counted.symm.trans counted'
      | element other | operator other | sequence other => cases kind.symm.trans other

end Expands

end Bufr
