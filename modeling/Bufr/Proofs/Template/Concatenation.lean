import Bufr.Proofs.Template.Frames

/-!
Chains in a row. Their templates stand in a row as well, and a coder that runs over them runs over one
template after the other: the walk over the first one goes on where its last replication is over, and
the walk over the second one has all its positions moved.
-/

namespace Bufr

/-! ## Expansion -/

namespace Template

instance : Append Template := ⟨fun front back => ⟨front.ops ++ back.ops⟩⟩

@[simp] theorem ops_append (front back : Template) : (front ++ back).ops = front.ops ++ back.ops := rfl

@[simp] theorem size_append (front back : Template) : (front ++ back).size = front.size + back.size :=
  Array.size_append

variable {resolver : Resolver} {deeper : Chain → Except Error (Array Opcode)} {front back : Chain}
  {done steps : Array Opcode}

theorem window?_append {count : Nat} {chain body rest : Chain}
    (window : window? count chain = some (body, rest)) (back : Chain) :
    window? count (chain ++ back) = some (body, rest ++ back) := by
  obtain ⟨long, rfl⟩ := window?_eq_some window
  simp only [window?, List.splitAt_eq, List.append_assoc, List.take_left' long,
    List.drop_left' long, long, Nat.lt_irrefl, ↓reduceIte]

theorem delayedCount_append {replication : Descriptor} {delayed : Bool} {chain rest : Chain}
    {count : Array Opcode} (counted : delayedCount replication delayed chain = .ok (count, rest))
    (back : Chain) : delayedCount replication delayed (chain ++ back) = .ok (count, rest ++ back) := by
  unfold delayedCount at *
  split at counted
  next isDelayed =>
    rw [if_pos isDelayed]
    split at counted
    · cases counted
    split at counted
    next qualifier =>
      cases counted
      simp only [List.cons_append, qualifier, ↓reduceIte]
    · cases counted
  next isFixed =>
    cases counted
    rw [if_neg isFixed]

theorem expandLevel_append (prior : Array Opcode) (back : Chain)
    (expanded : expandLevel resolver deeper done front = .ok steps) :
    expandLevel resolver deeper (prior ++ done) (front ++ back) =
      expandLevel resolver deeper (prior ++ steps) back := by
  fun_induction expandLevel resolver deeper done front with
  | case1 done =>
      cases expanded
      rfl
  | case2 done d rest kind ih | case3 done d rest kind ih =>
      rw [List.cons_append, expandLevel, kind]
      simpa using ih expanded
  | case6 done d rest kind elements found inner deeperOk ih =>
      rw [List.cons_append, expandLevel, kind]
      simp only [found, deeperOk]
      simpa using ih expanded
  | case11 done d rest kind repetition counted count others counts body rest' window inner deeperOk ih =>
      rw [List.cons_append, expandLevel, kind]
      simp only [counted]
      split
      next failed => cases (delayedCount_append counts back).symm.trans failed
      next again =>
        cases (delayedCount_append counts back).symm.trans again
        split
        next failed => cases (window?_append window back).symm.trans failed
        next again =>
          cases (window?_append window back).symm.trans again
          simp only [deeperOk]
          simpa using ih expanded
  | case4 | case5 | case7 | case8 | case9 | case10 => cases expanded

theorem expand_append {first second : Template} (expandedFront : expand resolver front = .ok first)
    (expandedBack : expand resolver back = .ok second) :
    expand resolver (front ++ back) = .ok (first ++ second) := by
  obtain ⟨steps, levelFront, rfl⟩ := map_eq_ok_iff.1 expandedFront
  obtain ⟨steps', levelBack, rfl⟩ := map_eq_ok_iff.1 expandedBack
  refine map_eq_ok_iff.2 ⟨steps ++ steps', ?_, rfl⟩
  rw [expandLevels] at *
  have throughFront := expandLevel_append #[] back levelFront
  have throughBack := expandLevel_append steps [] levelBack
  rw [List.append_nil, Array.append_empty, expandLevel] at throughBack
  rw [Array.empty_append, Array.empty_append] at throughFront
  exact throughFront.trans throughBack

theorem expand_operator {d : Descriptor} (kind : d.kind = .operator) :
    expand resolver [d] = .ok ⟨#[.operator d]⟩ := by
  simp [expand, expandLevels, expandLevel, kind, Except.map]

theorem expand_of_elements {ds : Chain} (elements : ∀ d ∈ ds, d.kind = .element) :
    expand resolver ds = .ok ⟨(ds.map Opcode.element).toArray⟩ := by
  induction ds with
  | nil => simp [expand, expandLevels, expandLevel, Except.map]
  | cons d ds ih =>
      obtain ⟨kind, others⟩ := List.forall_mem_cons.1 elements
      have alone : expand resolver [d] = .ok ⟨#[.element d]⟩ := by
        simp [expand, expandLevels, expandLevel, kind, Except.map]
      have joined : #[.element d] ++ (ds.map Opcode.element).toArray =
          ((d :: ds).map Opcode.element).toArray := by simp
      exact (expand_append alone (ih others)).trans
        (congrArg (fun ops => Except.ok (Template.mk ops)) joined)

end Template

/-! ## The walk over the second template -/

variable {State : Type} {coder : Coder State} {resolver : Resolver} {front back : Template}

def Frame.moved (offset : Nat) (frame : Frame) : Frame :=
  { frame with
    start := offset + frame.start
    stop := offset + frame.stop
    start_lt := Nat.add_lt_add_left frame.start_lt offset }

namespace Walk

def behind (front : Template) (walk : Walk) : Walk :=
  ⟨front ++ walk.template, front.size + walk.position, walk.frames.map (Frame.moved front.size)⟩

theorem settle_moved (offset position : Nat) (frames : List Frame) :
    settle (offset + position) (frames.map (Frame.moved offset)) =
      (offset + (settle position frames).1, (settle position frames).2.map (Frame.moved offset)) := by
  induction frames with
  | nil => rfl
  | cons frame outer ih =>
      simp only [List.map_cons, settle, Frame.moved, Nat.add_lt_add_iff_left]
      split
      · rfl
      split
      · rfl
      · exact ih

theorem next_behind (walk : Walk) :
    (walk.behind front).next = walk.next.map fun (op, rest) => (op, rest.behind front) := by
  have found (position : Nat) :
      (front ++ walk.template).ops[front.size + position]? = walk.template.ops[position]? := by
    rw [Template.ops_append, Template.size, Array.getElem?_append_right (Nat.le_add_right _ _),
      Nat.add_sub_cancel_left]
  unfold next behind
  rw [settle_moved]
  simp only [found]
  cases walk.template.ops[(settle walk.position walk.frames).1]? <;> rfl

theorem replicate_behind (walk : Walk) (span : Nat) (count : UInt64) :
    (walk.behind front).replicate span count =
      (walk.replicate span count).map (Walk.behind front) := by
  unfold replicate behind
  simp only [Template.size_append, Nat.add_assoc, Nat.add_lt_add_iff_left]
  split
  · rfl
  split
  · rfl
  · rfl

end Walk

namespace Coder

def IsBlind (coder : Coder State) : Prop :=
  ∀ walk walk' code s, coder.operator walk code s = coder.operator walk' code s

theorem replication_behind (code : Descriptor) (span : Nat) (walk : Walk) (s : State) :
    coder.replication resolver code span (walk.behind front) s =
      (coder.replication resolver code span walk s).map fun (walk, s) => (walk.behind front, s) := by
  unfold replication delayed
  rw [Walk.next_behind]
  cases resolver.repetition code with
  | error e => rfl
  | ok repetition =>
    simp only
    split
    · cases walk.next with
      | none => rfl
      | some found =>
          obtain ⟨op, rest⟩ := found
          cases op with
          | element element =>
              simp only [Option.map_some]
              split
              · cases coder.count code element s with
                | error e => rfl
                | ok counted =>
                    obtain ⟨passes, s⟩ := counted
                    simp only [Walk.replicate_behind]
                    cases rest.replicate span passes <;> rfl
              · rfl
          | replication | operator => rfl
    · rw [Walk.replicate_behind]
      cases walk.replicate span repetition.count.toUInt64 <;> rfl

theorem step_behind (blind : coder.IsBlind) (walk : Walk) (s : State) :
    coder.step resolver (walk.behind front) s =
      (coder.step resolver walk s).map fun (walk?, s) => (walk?.map (Walk.behind front), s) := by
  unfold step
  rw [Walk.next_behind]
  cases walk.next with
  | none => rfl
  | some found =>
      obtain ⟨op, rest⟩ := found
      cases op with
      | element code =>
          simp only [Option.map_some]
          cases coder.element code s <;> rfl
      | operator code =>
          simp only [Option.map_some]
          rw [blind (rest.behind front) rest]
          cases coder.operator rest code s <;> rfl
      | replication code span =>
          simp only [Option.map_some]
          rw [replication_behind]
          cases coder.replication resolver code span rest s <;> rfl

theorem run_behind (blind : coder.IsBlind) (walk : Walk) (s : State) :
    coder.run resolver (walk.behind front) s = coder.run resolver walk s := by
  have moved (walk : Walk) (s : State) : coder.step resolver (walk.behind front) s = _ :=
    step_behind blind walk s
  induction walk, s using run.induct coder resolver with
  | case1 walk s e failed =>
      rw [run, moved, failed, run, failed]
      rfl
  | case2 walk s s' stepped =>
      rw [run, moved, stepped, run, stepped]
      rfl
  | case3 walk s walk' s' stepped ih =>
      rw [run, moved, stepped, run, stepped]
      exact ih

end Coder

/-! ## The walk over the first template -/

namespace Walk

variable {walk rest again : Walk} {op : Opcode} {code : Descriptor} {span : Nat}

def before (back : Template) (walk : Walk) : Walk := { walk with template := walk.template ++ back }

theorem next_before (next : walk.next = some (op, rest)) :
    (walk.before back).next = some (op, rest.before back) := by
  unfold Walk.next at *
  split at next
  next position kept settled =>
    split at next
    · cases next
    next found =>
      cases next
      obtain ⟨inside, -⟩ := Array.getElem?_eq_some_iff.1 found
      have found' : (walk.template.ops ++ back.ops)[position]? = some op :=
        (Array.getElem?_append_left inside).trans found
      simp only [before, settled, Template.ops_append, found']

theorem settle_nil {position settled : Nat} {frames : List Frame}
    (ended : settle position frames = (settled, [])) : settled = position := by
  induction frames with
  | nil =>
      cases ended
      rfl
  | cons frame outer ih =>
      rw [settle] at ended
      split at ended
      · cases ended
      split at ended
      · cases ended
      · exact ih ended

theorem next_before_end (back : Template) (nested : walk.IsNested) (ended : walk.next = none) :
    (walk.before back).next = ((start back).behind walk.template).next := by
  unfold Walk.next at ended
  split at ended
  next settled kept settles =>
    split at ended
    next outside =>
      have past := Array.getElem?_eq_none_iff.1 outside
      obtain ⟨inside, -, same⟩ := settle_around nested.around nested.nested settles
      obtain rfl : kept = [] := by
        refine List.eq_nil_iff_forall_not_mem.2 fun frame mem => ?_
        obtain ⟨old, memOld, -, sameStop⟩ := same frame mem
        have := nested.stop_le old memOld
        have := inside frame mem
        simp only [Template.size] at *
        omega
      have atEnd : settled = walk.template.size := by
        have := nested.position_le
        have := settle_nil settles
        simp only [Template.size] at *
        omega
      subst atEnd
      simp only [Walk.next, before, settles, behind, start, settle, List.map_nil, Nat.add_zero]
    · cases ended

theorem replicate_before {count : UInt64} (replicated : walk.replicate span count = .ok again) :
    (walk.before back).replicate span count = .ok (again.before back) := by
  unfold replicate at *
  split at replicated
  · cases replicated
  next fits =>
    rw [if_neg (by simp only [before, Template.size_append]; omega)]
    split at replicated
    next nothing =>
      cases replicated
      exact dif_pos nothing
    next something =>
      cases replicated
      exact dif_neg something

end Walk

namespace Coder

variable {walk walk' : Walk} {template : Template}

theorem replication_before {code : Descriptor} {span : Nat} {rest : Walk} {s : State}
    (wellFormed : WellFormed resolver template.ops.toList)
    (guided : walk.IsGuided resolver template)
    (next : walk.next = some (.replication code span, rest)) :
    coder.replication resolver code span (rest.before back) s =
      (coder.replication resolver code span rest s).map fun (walk, s) => (walk.before back, s) := by
  obtain ⟨repetition, answered, goes⟩ := Walk.isGuided_replication wellFormed guided next
  unfold replication
  simp only [answered]
  split at goes
  next isDelayed =>
    obtain ⟨count, behind, nextCount, -, -, replicates⟩ := goes
    simp only [isDelayed, ↓reduceIte, delayed, nextCount, Walk.next_before nextCount]
    split
    · cases coder.count code count s with
      | error e => rfl
      | ok counted =>
          obtain ⟨passes, s⟩ := counted
          obtain ⟨again, replicated, -⟩ := replicates passes
          simp only [replicated, Walk.replicate_before replicated]
          rfl
    · rfl
  next isFixed =>
    obtain ⟨again, replicated, -⟩ := goes repetition.count.toUInt64
    simp only [isFixed, Bool.false_eq_true, ↓reduceIte, replicated, Walk.replicate_before replicated]
    rfl

theorem step_before (blind : coder.IsBlind) (wellFormed : WellFormed resolver template.ops.toList)
    (guided : walk.IsGuided resolver template) {s : State}
    (going : coder.step resolver walk s ≠ .ok (none, s)) :
    coder.step resolver (walk.before back) s =
      (coder.step resolver walk s).map fun (walk?, s) => (walk?.map (Walk.before back), s) := by
  unfold step at *
  cases next : walk.next with
  | none =>
      rw [next] at going
      exact absurd rfl going
  | some found =>
      obtain ⟨op, rest⟩ := found
      rw [Walk.next_before next]
      cases op with
      | element code =>
          simp only
          cases coder.element code s <;> rfl
      | operator code =>
          simp only
          rw [blind (rest.before back) rest]
          cases coder.operator rest code s <;> rfl
      | replication code span =>
          simp only
          rw [replication_before wellFormed guided next]
          cases coder.replication resolver code span rest s <;> rfl

theorem run_before (blind : coder.IsBlind) (wellFormed : WellFormed resolver template.ops.toList)
    (guided : walk.IsGuided resolver template) (s : State) :
    coder.run resolver (walk.before back) s =
      coder.run resolver walk s >>= coder.run resolver ((Walk.start back).behind template) := by
  induction walk, s using run.induct coder resolver with
  | case1 walk s e failed =>
      have going : coder.step resolver walk s ≠ .ok (none, s) := by simp [failed]
      have onward : coder.step resolver (walk.before back) s = _ :=
        step_before blind wellFormed guided going
      rw [run, onward, failed, run, failed]
      rfl
  | case2 walk s s' stepped =>
      obtain ⟨ended, rfl⟩ := done_of_step stepped
      have onward := Walk.next_before_end back guided.toIsNested ended
      rw [guided.template_eq] at onward
      rw [run_congr onward, run.eq_def coder resolver walk, stepped]
      rfl
  | case3 walk s walk' s' stepped ih =>
      have going : coder.step resolver walk s ≠ .ok (none, s) := by simp [stepped]
      have onward : coder.step resolver (walk.before back) s = _ :=
        step_before blind wellFormed guided going
      rw [run, onward, stepped, run, stepped]
      exact ih (isGuided_of_step wellFormed guided stepped)

theorem run_append (blind : coder.IsBlind) (wellFormed : WellFormed resolver front.ops.toList)
    (s : State) :
    coder.run resolver (.start (front ++ back)) s =
      coder.run resolver (.start front) s >>= coder.run resolver (.start back) := by
  -- The first template is walked as if nothing came behind it, the second as if nothing came before.
  have whole : Walk.start (front ++ back) = (Walk.start front).before back := rfl
  rw [whole, run_before blind wellFormed (Walk.isGuided_start resolver front)]
  congr 1
  funext s
  exact run_behind blind (.start back) s

end Coder

end Bufr
