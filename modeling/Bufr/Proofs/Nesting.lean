import Bufr.Proofs.Run

/-!
Nested steps, where the whole body of a replication stands behind it. A walk plays a body pass after
pass and is then where the body ends, whatever surrounds it.
-/

namespace Bufr

/-- Steps in which every replication has its body. -/
inductive Nested (resolver : Resolver) : List Opcode → Prop where
  | nil : Nested resolver []
  | element {code rest} (more : Nested resolver rest) : Nested resolver (.element code :: rest)
  | operator {code rest} (more : Nested resolver rest) : Nested resolver (.operator code :: rest)
  | fixed {code passes body rest} (counted : resolver.repetition code = .ok ⟨passes, false⟩)
      (inner : Nested resolver body) (more : Nested resolver rest) :
      Nested resolver (.replication code body.length :: (body ++ rest))
  | delayed {code unused count body rest} (counted : resolver.repetition code = .ok ⟨unused, true⟩)
      (inner : Nested resolver body) (more : Nested resolver rest) :
      Nested resolver (.replication code body.length :: .element count :: (body ++ rest))

namespace Walk

variable {resolver : Resolver} {template : Template} {position : Nat} {frames : List Frame}
  {op : Opcode} {body steps rest : List Opcode} {events : List Event}

def HasRoom (position count : Nat) (frames : List Frame) : Prop :=
  ∀ frame ∈ frames.head?, position + count ≤ frame.stop

theorem settle_of_hasRoom (room : HasRoom position 1 frames) :
    settle position frames = (position, frames) := by
  cases frames with
  | nil => rfl
  | cons frame outer =>
      have inside := room frame rfl
      rw [settle, if_pos (by omega)]

theorem next_of_drop (here : template.ops.toList.drop position = op :: rest)
    (room : HasRoom position 1 frames) :
    next ⟨template, position, frames⟩ = some (op, ⟨template, position + 1, frames⟩) := by
  have found : template.ops[position]? = some op := by
    rw [← Array.getElem?_toList, ← List.head?_drop, here, List.head?_cons]
  simp only [next, settle_of_hasRoom room, found]

theorem next_at_top (here : template.ops.toList.drop position = op :: rest) :
    next ⟨template, position, []⟩ = some (op, ⟨template, position + 1, []⟩) :=
  next_of_drop here nofun

theorem next_at_end (here : template.ops.toList.drop position = []) :
    next ⟨template, position, []⟩ = none := by
  have outside : template.ops[position]? = none := by
    rw [← Array.getElem?_toList, ← List.head?_drop, here, List.head?_nil]
  simp only [next, settle, outside]

theorem lt_of_drop (here : template.ops.toList.drop position = op :: rest) :
    position < template.size := by
  have long := congrArg List.length here
  rw [List.length_drop, List.length_cons, Array.length_toList] at long
  rw [Template.size]
  omega

theorem drop_succ (here : template.ops.toList.drop position = op :: rest) :
    template.ops.toList.drop (position + 1) = rest := by
  rw [← List.tail_drop, here, List.tail_cons]

theorem drop_append (here : template.ops.toList.drop position = body ++ rest) :
    template.ops.toList.drop (position + body.length) = rest := by
  rw [← List.drop_drop, here, List.drop_left]

theorem add_length_cons (position : Nat) (op : Opcode) (steps : List Opcode) :
    position + (op :: steps).length = position + 1 + steps.length := by
  rw [List.length_cons]
  omega

theorem HasRoom.within {position' count count' : Nat} (room : HasRoom position count frames)
    (inside : position' + count' ≤ position + count) : HasRoom position' count' frames :=
  fun frame mem => Nat.le_trans inside (room frame mem)

theorem hasRoom_succ {count : Nat} (room : HasRoom position (count + 1) frames) :
    HasRoom (position + 1) count frames :=
  room.within (by omega)

theorem hasRoom_one {count : Nat} (room : HasRoom position (count + 1) frames) :
    HasRoom position 1 frames :=
  room.within (by omega)

theorem next_at_stop (frame : Frame) :
    next ⟨template, frame.stop, frame :: frames⟩ =
      if 1 < frame.remaining then next ⟨template, frame.start, frame.again :: frames⟩
      else next ⟨template, frame.stop, frames⟩ := by
  have start_lt := frame.start_lt
  split
  next again =>
    have first : settle frame.start (frame.again :: frames) = (frame.start, frame.again :: frames) :=
      settle_of_hasRoom fun _ same => by cases same; exact start_lt
    simp only [next, first]
    rw [settle, if_neg (Nat.lt_irrefl _), if_pos again]
  next last =>
    have ended : settle frame.stop (frame :: frames) = settle frame.stop frames := by
      rw [settle, if_neg (Nat.lt_irrefl _), if_neg last]
    simp only [next, ended]

theorem plays_passes {P : List Event → Prop} {frame : Frame} (positive : 0 < frame.remaining)
    (pass : ∀ frame' events, frame'.start = frame.start → frame'.stop = frame.stop →
      Plays resolver ⟨template, frame.start, frame' :: frames⟩ events →
      ∃ front back, events = front ++ back ∧ P front ∧
        Plays resolver ⟨template, frame.stop, frame' :: frames⟩ back)
    (plays : Plays resolver ⟨template, frame.start, frame :: frames⟩ events) :
    ∃ (fronts : List (List Event)) (back : List Event),
      events = fronts.flatten ++ back ∧ fronts.length = frame.remaining ∧
      (∀ front ∈ fronts, P front) ∧ Plays resolver ⟨template, frame.stop, frames⟩ back := by
  obtain ⟨left, remaining⟩ : ∃ left, frame.remaining = left + 1 := ⟨frame.remaining - 1, by omega⟩
  induction left generalizing frame events with
  | zero =>
      obtain ⟨front, back, rfl, held, behind⟩ := pass frame events rfl rfl plays
      refine ⟨[front], back, by simp, by simp [remaining], by simpa using held, ?_⟩
      refine behind.congr ?_
      rw [next_at_stop, if_neg (by omega)]
  | succ left ih =>
      obtain ⟨front, back, rfl, held, behind⟩ := pass frame events rfl rfl plays
      have again : Plays resolver ⟨template, frame.start, frame.again :: frames⟩ back := by
        refine behind.congr ?_
        rw [next_at_stop, if_pos (by omega)]
      have left_again : frame.again.remaining = left + 1 := by simp [Frame.again, remaining]
      obtain ⟨fronts, back, rfl, long, all, behind⟩ :=
        @ih back frame.again (by omega) (fun frame' => pass frame') again left_again
      refine ⟨front :: fronts, back, by simp, by simp [long, left_again, remaining], ?_, behind⟩
      exact List.forall_mem_cons.2 ⟨held, all⟩

theorem plays_replicate {P : List Event → Prop} {passes : UInt64} {again : Walk}
    (replicated : replicate ⟨template, position, frames⟩ body.length passes = .ok again)
    (pass : ∀ frame events, frame.start = position → frame.stop = position + body.length →
      Plays resolver ⟨template, position, frame :: frames⟩ events →
      ∃ front back, events = front ++ back ∧ P front ∧
        Plays resolver ⟨template, position + body.length, frame :: frames⟩ back)
    (plays : again.Plays resolver events) :
    ∃ (fronts : List (List Event)) (back : List Event),
      events = fronts.flatten ++ back ∧
        fronts.length = (if body.length = 0 then 0 else passes.toNat) ∧
        (∀ front ∈ fronts, P front) ∧
        Plays resolver ⟨template, position + body.length, frames⟩ back := by
  cases replicates_of_replicate replicated with
  | skipped nothing =>
      refine ⟨[], events, rfl, ?_, List.forall_mem_nil _, plays⟩
      rcases nothing with rfl | empty
      · simp
      · simp [empty]
  | entered frame start stop remaining positive nonempty =>
      cases start
      rw [if_neg nonempty, ← remaining, ← stop]
      refine plays_passes (by omega) (fun frame' events start' stop' plays => ?_) plays
      rw [stop] at stop' ⊢
      exact pass frame' events start' stop' plays

end Walk

def Event.IsFrom (steps : List Opcode) : Event → Prop
  | .element code => .element code ∈ steps
  | .operator _ code => .operator code ∈ steps
  | .count _ code _ => .element code ∈ steps

theorem Event.IsFrom.mono {steps more : List Opcode} {event : Event} (from_ : event.IsFrom steps)
    (subset : steps ⊆ more) : event.IsFrom more := by
  cases event <;> exact subset from_

namespace Walk

variable {resolver : Resolver} {template : Template} {position : Nat} {frames : List Frame}
  {body rest : List Opcode} {events : List Event}

theorem plays_replicated {others : List Opcode} {passes : UInt64} {again : Walk}
    (replicated : replicate ⟨template, position, frames⟩ body.length passes = .ok again)
    (pass : ∀ frame events, frame.start = position → frame.stop = position + body.length →
      Plays resolver ⟨template, position, frame :: frames⟩ events →
      ∃ front back, events = front ++ back ∧ (∀ event ∈ front, event.IsFrom body) ∧
        Plays resolver ⟨template, position + body.length, frame :: frames⟩ back)
    (behind : ∀ events, Plays resolver ⟨template, position + body.length, frames⟩ events →
      ∃ front back, events = front ++ back ∧ (∀ event ∈ front, event.IsFrom others) ∧
        Plays resolver ⟨template, position + body.length + others.length, frames⟩ back)
    (plays : again.Plays resolver events) :
    ∃ front back, events = front ++ back ∧ (∀ event ∈ front, event.IsFrom (body ++ others)) ∧
      Plays resolver ⟨template, position + (body ++ others).length, frames⟩ back := by
  obtain ⟨fronts, back, rfl, -, inside, more⟩ := plays_replicate
    (P := fun front => ∀ event ∈ front, event.IsFrom body) replicated pass plays
  obtain ⟨front, back, rfl, insideBack, more⟩ := behind back more
  refine ⟨fronts.flatten ++ front, back, (List.append_assoc ..).symm, ?_, ?_⟩
  · intro event mem
    rcases List.mem_append.1 mem with mem | mem
    · obtain ⟨pass, memPass, mem⟩ := List.mem_flatten.1 mem
      exact (inside pass memPass event mem).mono (List.subset_append_left _ _)
    · exact (insideBack event mem).mono (List.subset_append_right _ _)
  · rwa [List.length_append, ← Nat.add_assoc]

theorem plays_nested (nested : Nested resolver body)
    (here : template.ops.toList.drop position = body ++ rest)
    (room : HasRoom position body.length frames)
    (plays : Plays resolver ⟨template, position, frames⟩ events) :
    ∃ front back, events = front ++ back ∧ (∀ event ∈ front, event.IsFrom body) ∧
      Plays resolver ⟨template, position + body.length, frames⟩ back := by
  -- On the nesting. A body is played in a frame of its own, so frames and position are left open.
  induction nested generalizing position frames events rest with
  | nil => exact ⟨[], events, rfl, List.forall_mem_nil _, plays⟩
  | @element code body _ ih =>
      obtain ⟨events, rfl, more⟩ :=
        (plays_element_iff (next_of_drop here (hasRoom_one room))).1 plays
      obtain ⟨front, back, rfl, inside, behind⟩ := ih (drop_succ here) (hasRoom_succ room) more
      refine ⟨.element code :: front, back, rfl, ?_, add_length_cons .. ▸ behind⟩
      refine List.forall_mem_cons.2 ⟨List.mem_cons_self, fun event mem => ?_⟩
      exact (inside event mem).mono (List.subset_cons_self _ _)
  | @operator code body _ ih =>
      obtain ⟨events, rfl, more⟩ :=
        (plays_operator_iff (next_of_drop here (hasRoom_one room))).1 plays
      obtain ⟨front, back, rfl, inside, behind⟩ := ih (drop_succ here) (hasRoom_succ room) more
      refine ⟨.operator _ code :: front, back, rfl, ?_, add_length_cons .. ▸ behind⟩
      refine List.forall_mem_cons.2 ⟨List.mem_cons_self, fun event mem => ?_⟩
      exact (inside event mem).mono (List.subset_cons_self _ _)
  | @fixed code passes body others counted _ _ ihBody ih =>
      obtain ⟨again, replicated, more⟩ :=
        (plays_fixed_iff (next_of_drop here (hasRoom_one room)) counted).1 plays
      have here' : template.ops.toList.drop (position + 1) = body ++ (others ++ rest) :=
        (drop_succ here).trans (List.append_assoc ..)
      rw [List.length_cons, List.length_append] at room
      obtain ⟨front, back, rfl, inside, behind⟩ := plays_replicated replicated
        (fun frame events start stop plays =>
          ihBody here' (fun _ same => by cases same; omega) plays)
        (fun events plays =>
          ih (drop_append here') (room.within (by omega)) plays) more
      refine ⟨front, back, rfl, fun event mem => ?_, add_length_cons .. ▸ behind⟩
      exact (inside event mem).mono (List.subset_cons_self _ _)
  | @delayed code unused count body others counted _ _ ihBody ih =>
      obtain ⟨_, _, passes, again, events, nextCount, _, replicated, rfl, more⟩ :=
        (plays_delayed_iff (next_of_drop here (hasRoom_one room)) counted).1 plays
      have afterCount := drop_succ here
      cases nextCount.symm.trans (next_of_drop afterCount (hasRoom_one (hasRoom_succ room)))
      have here' : template.ops.toList.drop (position + 1 + 1) = body ++ (others ++ rest) :=
        (drop_succ afterCount).trans (List.append_assoc ..)
      rw [List.length_cons, List.length_cons, List.length_append] at room
      obtain ⟨front, back, rfl, inside, behind⟩ := plays_replicated replicated
        (fun frame events start stop plays =>
          ihBody here' (fun _ same => by cases same; omega) plays)
        (fun events plays =>
          ih (drop_append here') (room.within (by omega)) plays) more
      refine ⟨.count code count passes :: front, back, rfl, ?_, ?_⟩
      · refine List.forall_mem_cons.2 ⟨by simp [Event.IsFrom], fun event mem => ?_⟩
        exact (inside event mem).mono fun _ mem => by simp [mem]
      · rw [add_length_cons, add_length_cons]
        exact behind

end Walk

end Bufr
