import Bufr.Proofs.Template.Bodies
import Bufr.Proofs.Template.Unrolled
import Bufr.Subset.Decoding
import Bufr.Subset.Encoding

/-!
The frames of a walk over a well-formed template. Each is the body of a replication, they stand
around the position and one in the other, and no replication that the walk meets reaches behind the
end of the template.
-/

namespace Bufr

namespace Walk

structure IsNested (walk : Walk) : Prop where
  position_le : walk.position ≤ walk.template.size
  around : ∀ frame ∈ walk.frames, frame.start ≤ walk.position ∧ walk.position ≤ frame.stop
  nested : walk.frames.Pairwise fun inner outer =>
    outer.start < inner.start ∧ inner.stop ≤ outer.stop
  stop_le : ∀ frame ∈ walk.frames, frame.stop ≤ walk.template.size

/-- Whatever comes next, a replication above all, the walk can go on. -/
structure IsSafe (resolver : Resolver) (walk : Walk) : Prop extends walk.IsNested where
  next : ∀ op rest, walk.next = some (op, rest) → rest.IsNested
  replication : ∀ code span rest, walk.next = some (.replication code span, rest) →
    ∃ repetition, resolver.repetition code = .ok repetition ∧
      if repetition.delayed then
        ∃ count behind, rest.next = some (.element count, behind) ∧ count.isQualifier ∧
          behind.IsNested ∧
          ∀ passes, ∃ again, behind.replicate span passes = .ok again ∧ again.IsNested
      else ∀ passes, ∃ again, rest.replicate span passes = .ok again ∧ again.IsNested

structure IsGuided (resolver : Resolver) (template : Template) (walk : Walk) : Prop
    extends walk.IsNested where
  template_eq : walk.template = template
  bodies : ∀ frame ∈ walk.frames,
    ∃ position, HasBody resolver template.ops.toList position frame.start frame.stop

variable {resolver : Resolver} {template : Template} {walk walk' rest : Walk} {op : Opcode}
  {code : Descriptor} {span position settled : Nat} {frames kept : List Frame}

theorem isGuided_start (resolver : Resolver) (template : Template) :
    (start template).IsGuided resolver template where
  position_le := Nat.zero_le _
  around := List.forall_mem_nil _
  nested := .nil
  stop_le := List.forall_mem_nil _
  template_eq := rfl
  bodies := List.forall_mem_nil _

theorem settle_around
    (around : ∀ frame ∈ frames, frame.start ≤ position ∧ position ≤ frame.stop)
    (nested : frames.Pairwise fun inner outer =>
      outer.start < inner.start ∧ inner.stop ≤ outer.stop)
    (ended : settle position frames = (settled, kept)) :
    (∀ frame ∈ kept, frame.start ≤ settled ∧ settled < frame.stop) ∧
      (kept.Pairwise fun inner outer => outer.start < inner.start ∧ inner.stop ≤ outer.stop) ∧
      ∀ frame ∈ kept, ∃ old ∈ frames, old.start = frame.start ∧ old.stop = frame.stop := by
  induction frames with
  | nil =>
      cases ended
      exact ⟨List.forall_mem_nil _, .nil, List.forall_mem_nil _⟩
  | cons frame outer ih =>
      obtain ⟨here, others⟩ := List.forall_mem_cons.1 around
      obtain ⟨first, nestedOuter⟩ := List.pairwise_cons.1 nested
      rw [settle] at ended
      split at ended
      next inside =>
        cases ended
        refine ⟨List.forall_mem_cons.2 ⟨⟨here.1, inside⟩, fun other mem => ?_⟩, nested,
          fun other mem => ⟨other, mem, rfl, rfl⟩⟩
        have := first other mem
        have := others other mem
        omega
      split at ended
      · -- One pass more: the position is at the start, and the outer frames are around that, too.
        cases ended
        have start_lt := frame.start_lt
        refine ⟨List.forall_mem_cons.2 ⟨⟨Nat.le_refl _, start_lt⟩, fun other mem => ?_⟩,
          List.pairwise_cons.2 ⟨first, nestedOuter⟩,
          List.forall_mem_cons.2 ⟨⟨frame, List.mem_cons_self, rfl, rfl⟩, fun other mem =>
            ⟨other, List.mem_cons_of_mem _ mem, rfl, rfl⟩⟩⟩
        have := first other mem
        omega
      · obtain ⟨inside, nestedKept, same⟩ := ih others nestedOuter ended
        refine ⟨inside, nestedKept, fun other mem => ?_⟩
        obtain ⟨old, memOld, sameOld⟩ := same other mem
        exact ⟨old, List.mem_cons_of_mem _ memOld, sameOld⟩

theorem isGuided_next (guided : walk.IsGuided resolver template)
    (next : walk.next = some (op, rest)) :
    rest.IsGuided resolver template ∧ ∃ position, rest.position = position + 1 ∧
      template.ops.toList[position]? = some op ∧
      ∀ frame ∈ rest.frames, frame.start ≤ position ∧ position < frame.stop := by
  unfold Walk.next at next
  split at next
  next settled kept ended =>
    split at next
    · cases next
    next found =>
      cases next
      obtain ⟨inside, nested, same⟩ := settle_around guided.around guided.nested ended
      have stop_le (frame) (mem : frame ∈ kept) : frame.stop ≤ walk.template.size := by
        obtain ⟨old, memOld, -, sameStop⟩ := same frame mem
        exact sameStop ▸ guided.stop_le old memOld
      have bodies (frame) (mem : frame ∈ kept) :
          ∃ position, HasBody resolver template.ops.toList position frame.start frame.stop := by
        obtain ⟨old, memOld, sameStart, sameStop⟩ := same frame mem
        exact sameStart ▸ sameStop ▸ guided.bodies old memOld
      have around (frame) (mem : frame ∈ kept) :
          frame.start ≤ settled + 1 ∧ settled + 1 ≤ frame.stop := by
        have := inside frame mem
        omega
      obtain ⟨short, -⟩ := Array.getElem?_eq_some_iff.1 found
      refine ⟨⟨⟨short, around, nested, stop_le⟩, guided.template_eq, bodies⟩, settled, rfl, ?_,
        inside⟩
      rw [← guided.template_eq, Array.getElem?_toList]
      exact found

theorem position_of_next (next : walk.next = some (op, rest)) :
    rest.position = walk.position + 1 ∨
      ∃ frame ∈ walk.frames, rest.position = frame.start + 1 := by
  have settled_position {position settled : Nat} {frames kept : List Frame}
      (ended : settle position frames = (settled, kept)) :
      settled = position ∨ ∃ frame ∈ frames, settled = frame.start := by
    induction frames with
    | nil =>
        cases ended
        exact Or.inl rfl
    | cons frame outer ih =>
        rw [settle] at ended
        split at ended
        · cases ended
          exact Or.inl rfl
        split at ended
        · cases ended
          exact Or.inr ⟨frame, List.mem_cons_self, rfl⟩
        · rcases ih ended with same | ⟨other, mem, same⟩
          · exact Or.inl same
          · exact Or.inr ⟨other, List.mem_cons_of_mem _ mem, same⟩
  unfold Walk.next at next
  split at next
  next settled kept ended =>
    split at next
    · cases next
    · cases next
      rcases settled_position ended with rfl | ⟨frame, mem, rfl⟩
      · exact Or.inl rfl
      · exact Or.inr ⟨frame, mem, rfl⟩

theorem position_of_replicate {count : UInt64} {again : Walk}
    (replicated : walk.replicate span count = .ok again) :
    again.position = walk.position ∨
      again.position = walk.position + span ∧ (count = 0 ∨ span = 0) := by
  cases replicates_of_replicate replicated with
  | skipped nothing => exact Or.inr ⟨rfl, nothing⟩
  | entered => exact Or.inl rfl

theorem isGuided_replicate (wellFormed : WellFormed resolver template.ops.toList)
    (guided : walk.IsGuided resolver template)
    (body : HasBody resolver template.ops.toList position walk.position (walk.position + span))
    (enclosed : ∀ frame ∈ walk.frames,
      frame.start ≤ position ∧ walk.position + span ≤ frame.stop)
    (passes : UInt64) :
    ∃ again, walk.replicate span passes = .ok again ∧ again.IsGuided resolver template := by
  have fits : walk.position + span ≤ walk.template.size := by
    have inside := wellFormed.inside body
    rwa [Array.length_toList, ← guided.template_eq] at inside
  obtain ⟨before, -⟩ := body.lt_start
  obtain ⟨again, replicated, way⟩ := exists_replicates fits passes
  refine ⟨again, replicated, ?_⟩
  cases way with
  | skipped =>
      refine ⟨⟨fits, fun frame mem => ?_, guided.nested, guided.stop_le⟩,
        guided.template_eq, guided.bodies⟩
      have := guided.around frame mem
      have := enclosed frame mem
      simp only
      omega
  | entered frame start stop =>
      refine ⟨⟨guided.position_le, ?_, ?_, ?_⟩, guided.template_eq, ?_⟩
      · exact List.forall_mem_cons.2 ⟨⟨Nat.le_of_eq start, by simp only; omega⟩, guided.around⟩
      · refine List.pairwise_cons.2 ⟨fun other mem => ?_, guided.nested⟩
        have := enclosed other mem
        omega
      · exact List.forall_mem_cons.2 ⟨stop ▸ fits, guided.stop_le⟩
      · exact List.forall_mem_cons.2 ⟨⟨position, start ▸ stop ▸ body⟩, guided.bodies⟩

theorem enclosed_of_next (wellFormed : WellFormed resolver template.ops.toList)
    (guided : walk.IsGuided resolver template) {start stop : Nat}
    (body : HasBody resolver template.ops.toList position start stop)
    (under : ∀ frame ∈ walk.frames, frame.start ≤ position ∧ position < frame.stop) :
    ∀ frame ∈ walk.frames, frame.start ≤ position ∧ stop ≤ frame.stop := by
  intro frame mem
  obtain ⟨outer, bodyOuter⟩ := guided.bodies frame mem
  have := under frame mem
  have := bodyOuter.lt_start
  have := wellFormed.nested (by omega) bodyOuter body
  omega

theorem next_count (wellFormed : WellFormed resolver template.ops.toList)
    (guided : walk.IsGuided resolver template)
    (next : walk.next = some (.replication code span, rest)) {passes : UInt8}
    (counted : resolver.repetition code = .ok ⟨passes, true⟩) :
    ∃ count, rest.next = some (.element count, { rest with position := rest.position + 1 }) ∧
      count.isQualifier := by
  obtain ⟨guidedRest, position, atRest, here, under⟩ := isGuided_next guided next
  have body : HasBody resolver template.ops.toList position (position + resolver.lead code)
      (position + resolver.lead code + span) := ⟨code, span, here, rfl, rfl⟩
  have enclosed := enclosed_of_next wellFormed guidedRest body under
  have lead : resolver.lead code = 2 := by rw [Resolver.lead, counted]
  obtain ⟨_, answered, delayed⟩ := wellFormed.counted here
  cases answered.symm.trans counted
  obtain ⟨count, hereCount, qualifier⟩ := delayed rfl
  have room : HasRoom rest.position 1 rest.frames := by
    intro frame mem
    have := enclosed frame (List.mem_of_mem_head? mem)
    omega
  have left : rest.template.ops.toList.drop rest.position =
      .element count :: template.ops.toList.drop (rest.position + 1) := by
    rw [← atRest] at hereCount
    obtain ⟨inside, found⟩ := List.getElem?_eq_some_iff.1 hereCount
    rw [guidedRest.template_eq, List.drop_eq_getElem_cons inside, found]
  exact ⟨count, next_of_drop left room, qualifier⟩

theorem isGuided_replication (wellFormed : WellFormed resolver template.ops.toList)
    (guided : walk.IsGuided resolver template)
    (next : walk.next = some (.replication code span, rest)) :
    ∃ repetition, resolver.repetition code = .ok repetition ∧
      if repetition.delayed then
        ∃ count behind, rest.next = some (.element count, behind) ∧ count.isQualifier ∧
          behind.IsGuided resolver template ∧
          ∀ passes, ∃ again, behind.replicate span passes = .ok again ∧
            again.IsGuided resolver template
      else ∀ passes, ∃ again, rest.replicate span passes = .ok again ∧
        again.IsGuided resolver template := by
  obtain ⟨guidedRest, position, atRest, here, under⟩ := isGuided_next guided next
  obtain ⟨⟨passes, delayed⟩, answered, -⟩ := wellFormed.counted here
  have body : HasBody resolver template.ops.toList position (position + resolver.lead code)
      (position + resolver.lead code + span) := ⟨code, span, here, rfl, rfl⟩
  have enclosed := enclosed_of_next wellFormed guidedRest body under
  refine ⟨⟨passes, delayed⟩, answered, ?_⟩
  cases delayed with
  | false =>
      have lead : resolver.lead code = 1 := by rw [Resolver.lead, answered]
      rw [lead, ← atRest] at body enclosed
      exact isGuided_replicate wellFormed guidedRest body enclosed
  | true =>
      have lead : resolver.lead code = 2 := by rw [Resolver.lead, answered]
      obtain ⟨count, nextCount, qualifier⟩ := next_count wellFormed guided next answered
      rw [lead] at body enclosed
      obtain ⟨guidedBehind, _⟩ := isGuided_next guidedRest nextCount
      have atBehind : position + 2 = rest.position + 1 := by omega
      rw [atBehind] at body enclosed
      exact ⟨count, _, nextCount, qualifier, guidedBehind,
        isGuided_replicate wellFormed guidedBehind body enclosed⟩

theorem IsGuided.isSafe (guided : walk.IsGuided resolver template)
    (wellFormed : WellFormed resolver template.ops.toList) : walk.IsSafe resolver where
  toIsNested := guided.toIsNested
  next op rest next := (isGuided_next guided next).1.toIsNested
  replication code span rest next := by
    obtain ⟨repetition, answered, goes⟩ := isGuided_replication wellFormed guided next
    refine ⟨repetition, answered, ?_⟩
    split at goes
    next delayed =>
      obtain ⟨count, behind, nextCount, qualifier, guidedBehind, replicates⟩ := goes
      rw [if_pos delayed]
      refine ⟨count, behind, nextCount, qualifier, guidedBehind.toIsNested, fun passes => ?_⟩
      obtain ⟨again, replicated, guidedAgain⟩ := replicates passes
      exact ⟨again, replicated, guidedAgain.toIsNested⟩
    next delayed =>
      rw [if_neg delayed]
      intro passes
      obtain ⟨again, replicated, guidedAgain⟩ := goes passes
      exact ⟨again, replicated, guidedAgain.toIsNested⟩

end Walk

namespace Coder

variable {State : Type} {coder : Coder State} {resolver : Resolver} {template : Template}
  {walk walk' : Walk} {s s' : State}

theorem isGuided_of_step (wellFormed : WellFormed resolver template.ops.toList)
    (guided : walk.IsGuided resolver template)
    (stepped : coder.step resolver walk s = .ok (some walk', s')) :
    walk'.IsGuided resolver template := by
  cases steps_of_step stepped with
  | element next | operator next => exact (Walk.isGuided_next guided next).1
  | fixed next counted replicated =>
      obtain ⟨_, answered, goes⟩ := Walk.isGuided_replication wellFormed guided next
      cases answered.symm.trans counted
      obtain ⟨_, replicated', guidedAgain⟩ := goes _
      cases replicated.symm.trans replicated'
      exact guidedAgain
  | delayed next counted nextCount _ _ replicated =>
      obtain ⟨_, answered, goes⟩ := Walk.isGuided_replication wellFormed guided next
      cases answered.symm.trans counted
      obtain ⟨_, _, nextCount', -, -, replicates⟩ := goes
      cases nextCount.symm.trans nextCount'
      obtain ⟨_, replicated', guidedAgain⟩ := replicates _
      cases replicated.symm.trans replicated'
      exact guidedAgain

theorem isGuided_of_reaches (wellFormed : WellFormed resolver template.ops.toList)
    (reached : coder.Reaches resolver (.start template, s) (walk, s')) :
    walk.IsGuided resolver template :=
  invariant_of_reaches (P := fun walk _ => walk.IsGuided resolver template)
    (Walk.isGuided_start resolver template)
    (fun _ _ _ _ _ guided stepped => isGuided_of_step wellFormed guided stepped) reached

end Coder

/-- What an expanded template is, and what it promises to all who walk over it. -/
structure Template.IsSafe (resolver : Resolver) (chain : Chain) (template : Template) : Prop where
  wellFormed : WellFormed resolver template.ops.toList
  flattens : ∀ flat, Flattens resolver chain flat ↔ flat = template.descriptors
  decoding : ∀ reader walk s, (Decoder.coder resolver).Reaches resolver
    (.start template, .start reader) (walk, s) → walk.IsSafe resolver
  encoding : ∀ subset writer walk s, (Encoder.coder resolver subset).Reaches resolver
    (.start template, .start writer) (walk, s) → walk.IsSafe resolver

theorem Template.isSafe_of_expand {resolver : Resolver} {chain : Chain} {template : Template}
    (expanded : Template.expand resolver chain = .ok template) :
    template.IsSafe resolver chain := by
  have expands := Expands.of_expand expanded
  have wellFormed := expands.wellFormed
  refine ⟨wellFormed, fun flat => ⟨fun flattens => expands.flattens.unique flattens, ?_⟩, ?_, ?_⟩
  · rintro rfl
    exact expands.flattens
  · intro reader walk s reached
    exact (Coder.isGuided_of_reaches wellFormed reached).isSafe wellFormed
  · intro subset writer walk s reached
    exact (Coder.isGuided_of_reaches wellFormed reached).isSafe wellFormed

theorem Template.isSafe_levels :
    ∃ template, Template.expand Resolver.winds levels = .ok template ∧
      template.IsSafe Resolver.winds levels := by
  have succeeds : (Template.expand Resolver.winds levels).toBool := by decide +kernel
  cases expanded : Template.expand Resolver.winds levels with
  | error e =>
      rw [expanded] at succeeds
      cases succeeds
  | ok template => exact ⟨template, rfl, Template.isSafe_of_expand expanded⟩

end Bufr
