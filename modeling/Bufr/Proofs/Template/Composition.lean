import Bufr.Proofs.Template.Concatenation
import Bufr.Proofs.Template.Unrolled

/-!
Expansion of a chain in parts. What stands in front of a chain is kept as it is, in its template and
in its errors, and a sequence can be written out: its elements are one level less deep than it says.
-/

namespace Bufr

namespace Template

variable {resolver : Resolver} {deeper deeper' : Chain → Except Error (Array Opcode)}
  {chain front rest body others elements : Chain} {done count steps : Array Opcode} {d : Descriptor}
  {repetition : Repetition}

theorem expandLevel_sequence (kind : d.kind = .sequence) (found : resolver.sequence d = .ok elements)
    (done : Array Opcode) (rest : Chain) :
    expandLevel resolver deeper done (d :: rest) =
      deeper elements >>= fun steps => expandLevel resolver deeper (done ++ steps) rest := by
  rw [expandLevel, kind]
  simp only [found]
  cases deeper elements <;> rfl

/-! ## A replication whose count has been read -/

section Counted

variable (kind : d.kind = .replication) (counted : resolver.repetition d = .ok repetition)

include kind counted

theorem expandLevel_uncounted {e : Error}
    (failed : delayedCount d repetition.delayed rest = .error e) (done : Array Opcode) :
    expandLevel resolver deeper done (d :: rest) = .error e := by
  rw [expandLevel, kind]
  simp only [counted]
  split
  next failed' =>
    cases failed.symm.trans failed'
    rfl
  next counts => cases failed.symm.trans counts

variable (counts : delayedCount d repetition.delayed rest = .ok (count, chain))

include counts

theorem expandLevel_short (short : window? d.x.toNat chain = none) (done : Array Opcode) :
    expandLevel resolver deeper done (d :: rest) = .error (.shortBody d chain.length) := by
  rw [expandLevel, kind]
  simp only [counted]
  split
  next failed => cases counts.symm.trans failed
  next again =>
    cases counts.symm.trans again
    split
    next => rfl
    next window => cases short.symm.trans window

theorem expandLevel_replication (window : window? d.x.toNat chain = some (body, others))
    (done : Array Opcode) :
    expandLevel resolver deeper done (d :: rest) =
      deeper body >>= fun steps =>
        expandLevel resolver deeper (done.push (.replication d steps.size) ++ count ++ steps)
          others := by
  rw [expandLevel, kind]
  simp only [counted]
  split
  next failed => cases counts.symm.trans failed
  next again =>
    cases counts.symm.trans again
    split
    next short => cases window.symm.trans short
    next again =>
      cases window.symm.trans again
      cases deeper body <;> rfl

end Counted

/-! ## What stands in front, and what lies below -/

theorem expandLevel_behind (prior done : Array Opcode) (chain : Chain) :
    expandLevel resolver deeper (prior ++ done) chain =
      (expandLevel resolver deeper done chain).map (prior ++ ·) := by
  fun_induction expandLevel resolver deeper done chain with
  | case1 done =>
      rw [expandLevel]
      rfl
  | case2 done d rest kind ih | case3 done d rest kind ih =>
      rw [expandLevel, kind]
      simpa using ih
  | case4 done d rest kind e failed | case7 done d rest kind e failed =>
      rw [expandLevel, kind]
      simp only [failed]
      rfl
  | case5 done d rest kind elements found e failed =>
      rw [expandLevel_sequence kind found, failed]
      rfl
  | case6 done d rest kind elements found inner deeperOk ih =>
      rw [expandLevel_sequence kind found, deeperOk, ok_bind, Array.append_assoc]
      exact ih
  | case8 done d rest kind repetition counted e failed =>
      exact expandLevel_uncounted kind counted failed _
  | case9 done d rest kind repetition counted count chain counts short =>
      exact expandLevel_short kind counted counts short _
  | case10 done d rest kind repetition counted count chain counts body others window e failed =>
      rw [expandLevel_replication kind counted counts window, failed]
      rfl
  | case11 done d rest kind repetition counted count chain counts body others window inner deeperOk ih =>
      rw [expandLevel_replication kind counted counts window, deeperOk, ok_bind]
      simpa using ih

theorem expandLevel_deeper
    (deep : ∀ chain steps, deeper chain = .ok steps → deeper' chain = .ok steps)
    (expanded : expandLevel resolver deeper done chain = .ok steps) :
    expandLevel resolver deeper' done chain = .ok steps := by
  fun_induction expandLevel resolver deeper done chain with
  | case1 done =>
      rw [expandLevel]
      exact expanded
  | case2 done d rest kind ih | case3 done d rest kind ih =>
      rw [expandLevel, kind]
      exact ih expanded
  | case6 done d rest kind elements found inner deeperOk ih =>
      rw [expandLevel_sequence kind found, deep _ _ deeperOk]
      exact ih expanded
  | case11 done d rest kind repetition counted count chain counts body others window inner deeperOk ih =>
      rw [expandLevel_replication kind counted counts window, deep _ _ deeperOk]
      exact ih expanded
  | case4 | case5 | case7 | case8 | case9 | case10 => cases expanded

theorem expandLevels_succ {levels : Nat} (expanded : expandLevels resolver levels chain = .ok steps) :
    expandLevels resolver (levels + 1) chain = .ok steps := by
  induction levels generalizing chain steps with
  | zero => cases expanded
  | succ levels ih => exact expandLevel_deeper (fun _ _ => ih) expanded

/-! ## Chains in parts -/

variable {first alone : Template}

theorem expand_behind (expanded : expand resolver front = .ok first) (back : Chain) :
    expand resolver (front ++ back) = (expand resolver back).map (first ++ ·) := by
  obtain ⟨steps, level, rfl⟩ := map_eq_ok_iff.1 expanded
  have whole : expandLevels resolver (maxDepth + 1) (front ++ back) =
      (expandLevels resolver (maxDepth + 1) back).map (steps ++ ·) := by
    rw [expandLevels] at *
    have through := expandLevel_append #[] back level
    rw [Array.empty_append, Array.empty_append] at through
    rw [through, expandLevels, ← expandLevel_behind, Array.append_empty]
  unfold expand
  rw [whole]
  cases expandLevels resolver (maxDepth + 1) back <;> rfl

theorem expand_elements (kind : d.kind = .sequence) (found : resolver.sequence d = .ok elements)
    (expanded : expand resolver [d] = .ok alone) : expand resolver elements = .ok alone := by
  obtain ⟨steps, level, rfl⟩ := map_eq_ok_iff.1 expanded
  rw [expandLevels, expandLevel_sequence kind found] at level
  obtain ⟨inner, below, rest⟩ := bind_eq_ok.1 level
  rw [expandLevel, Array.empty_append] at rest
  cases rest
  exact map_eq_ok_iff.2 ⟨steps, expandLevels_succ below, rfl⟩

/-- A chain is expanded in parts, and a sequence by itself or written out makes no difference. -/
theorem expand_in_parts (expanded : expand resolver front = .ok first) :
    (∀ back, expand resolver (front ++ back) = (expand resolver back).map (first ++ ·)) ∧
      ∀ d elements alone back, d.kind = .sequence → resolver.sequence d = .ok elements →
        expand resolver [d] = .ok alone →
        expand resolver (front ++ [d] ++ back) = expand resolver (front ++ elements ++ back) := by
  refine ⟨expand_behind expanded, fun d elements alone back kind found single => ?_⟩
  rw [List.append_assoc, List.append_assoc, expand_behind expanded, expand_behind expanded,
    expand_behind single, expand_behind (expand_elements kind found single)]

theorem expand_in_parts_winds :
    ∃ first, expand Resolver.winds [.replication 1 3, .sequence 9 1] = .ok first ∧
      (∀ back, expand Resolver.winds ([.replication 1 3, .sequence 9 1] ++ back) =
        (expand Resolver.winds back).map (first ++ ·)) ∧
      expand Resolver.winds [.replication 1 3, .sequence 9 1, .sequence 9 1, .element 12 101] =
        expand Resolver.winds [.replication 1 3, .sequence 9 1, .replication 2 0, .element 31 1,
          .element 11 1, .element 11 2, .element 12 101] :=
  have winds : expand Resolver.winds [.sequence 9 1] = .ok ⟨#[.replication (.replication 2 0) 2,
      .element (.element 31 1), .element (.element 11 1), .element (.element 11 2)]⟩ := by
    decide +kernel
  have repeated : expand Resolver.winds [.replication 1 3, .sequence 9 1] =
      .ok ⟨#[.replication (.replication 1 3) 4, .replication (.replication 2 0) 2,
        .element (.element 31 1), .element (.element 11 1), .element (.element 11 2)]⟩ := by
    decide +kernel
  ⟨_, repeated, (expand_in_parts repeated).1,
    (expand_in_parts repeated).2 (.sequence 9 1) _ _ [.element 12 101] rfl rfl winds⟩

end Template

end Bufr
