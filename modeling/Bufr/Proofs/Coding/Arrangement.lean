import Bufr.Proofs.Coding.Recoding

/-!
Runs put together from the back: what is restored from a place in the template on, with a step in
front of it, is restored from the place of the step on.
-/

namespace Bufr

variable {resolver : Resolver} {template : Template} {position : Nat} {frames : List Frame}
  {steps body rest : List Opcode} {events : List Event}

/-! ## Entries are played -/

namespace Walk

theorem plays_of_entries {count : Nat}
    (here : template.ops.toList.drop position = List.replicate count (.element .dataPresent) ++ rest)
    (room : HasRoom position count frames)
    (behind : Plays resolver ⟨template, position + count, frames⟩ events) :
    Plays resolver ⟨template, position, frames⟩
      (List.replicate count (.element .dataPresent) ++ events) := by
  induction count generalizing position with
  | zero => exact behind
  | succ count ih =>
      refine .element (next_of_drop here (hasRoom_one room)) (ih (drop_succ here) (hasRoom_succ room) ?_)
      rwa [Nat.add_comm count, ← Nat.add_assoc] at behind

theorem plays_of_passes {span left : Nat} {frame : Frame} (remaining : frame.remaining = left + 1)
    (stop : frame.stop = frame.start + span)
    (here : template.ops.toList.drop frame.start =
      List.replicate span (.element .dataPresent) ++ rest)
    (behind : Plays resolver ⟨template, frame.stop, frames⟩ events) :
    Plays resolver ⟨template, frame.start, frame :: frames⟩
      (List.replicate ((left + 1) * span) (.element .dataPresent) ++ events) := by
  have room (frame' : Frame) (same : frame'.start = frame.start ∧ frame'.stop = frame.stop) :
      HasRoom frame.start span (frame' :: frames) := by
    intro _ first
    cases first
    have := frame'.start_lt
    omega
  induction left generalizing frame with
  | zero =>
      rw [Nat.zero_add, Nat.one_mul]
      refine plays_of_entries here (room frame ⟨rfl, rfl⟩) (stop ▸ behind.congr ?_)
      rw [next_at_stop, if_neg (by omega)]
  | succ left ih =>
      have again := @ih frame.again (by simp [Frame.again, remaining]) stop here behind room
      rw [Nat.add_mul _ 1 span, Nat.one_mul, Nat.add_comm, List.replicate_add, List.append_assoc]
      refine plays_of_entries here (room frame ⟨rfl, rfl⟩) (stop ▸ again.congr ?_)
      rw [next_at_stop, if_pos (by omega)]
      rfl

theorem plays_of_replicated_entries {code : Descriptor} {passes : UInt8} {span : Nat}
    (counted : resolver.repetition code = .ok ⟨passes, false⟩)
    (here : template.ops.toList.drop position =
      .replication code span :: (List.replicate span (.element .dataPresent) ++ rest))
    (behind : Plays resolver ⟨template, position + 1 + span, []⟩ events) :
    Plays resolver ⟨template, position, []⟩
      (List.replicate (passes.toNat * span) (.element .dataPresent) ++ events) := by
  have inner := drop_succ here
  have inside : position + 1 + span ≤ template.size := by
    have := congrArg List.length here
    simp only [List.length_drop, Array.length_toList, List.length_cons, List.length_append,
      List.length_replicate] at this
    simp only [Template.size]
    omega
  obtain ⟨again, replicated, way⟩ :=
    @exists_replicates ⟨template, position + 1, []⟩ _ inside passes.toUInt64
  refine .fixed (next_at_top here) counted replicated ?_
  cases way with
  | skipped nothing =>
      have none : passes.toNat * span = 0 := by
        rcases nothing with zero | empty
        · rw [← UInt8.toNat_toUInt64, zero]
          exact Nat.zero_mul span
        · rw [empty, Nat.mul_zero]
      rw [none]
      exact behind
  | entered frame start stop remaining positive =>
      rw [UInt8.toNat_toUInt64] at remaining positive
      obtain ⟨left, more⟩ := Nat.exists_eq_succ_of_ne_zero positive
      rw [more] at remaining ⊢
      simp only at start stop ⊢
      rw [← start] at inner stop behind ⊢
      exact plays_of_passes remaining stop inner (stop ▸ behind)

end Walk

/-! ## Restoring from a place on -/

/-- The steps that stand for so many entries: the entries, or one replication of some. -/
inductive EntrySteps (resolver : Resolver) : List Opcode → Nat → Prop where
  | plain (count : Nat) : EntrySteps resolver (List.replicate count (.element .dataPresent)) count
  | fixed {code passes} (span : Nat) (counted : resolver.repetition code = .ok ⟨passes, false⟩) :
      EntrySteps resolver (.replication code span :: List.replicate span (.element .dataPresent))
        (passes.toNat * span)

theorem EntrySteps.plays {count : Nat} (entries : EntrySteps resolver steps count)
    (here : template.ops.toList.drop position = steps ++ rest)
    (behind : Walk.Plays resolver ⟨template, position + steps.length, []⟩ events) :
    Walk.Plays resolver ⟨template, position, []⟩
      (List.replicate count (.element .dataPresent) ++ events) := by
  cases entries with
  | plain =>
      rw [List.length_replicate] at behind
      exact Walk.plays_of_entries here nofun behind
  | fixed span counted =>
      rw [List.length_cons, List.length_replicate, Nat.add_comm span, ← Nat.add_assoc] at behind
      exact Walk.plays_of_replicated_entries counted here behind

namespace Subset

variable {subset : Subset} {σ σ₁ : Situation} {actions : List Action} {task : Task} {data : task.Data}
  {code : Descriptor}

def RestoresFrom (resolver : Resolver) (template : Template) (subset : Subset) (position : Nat)
    (σ : Situation) (actions : List Action) : Prop :=
  ∃ events σ' σ'', Walk.Plays resolver ⟨template, position, []⟩ events ∧
    subset.Restores resolver σ [] events actions σ' ∧ σ'.settle = .ok σ''

theorem RestoresFrom.nil (ended : template.ops.toList.drop position = []) (settled : σ.settle = .ok σ₁) :
    subset.RestoresFrom resolver template position σ [] :=
  ⟨[], σ, σ₁, .done (Walk.next_at_end ended), .nil, settled⟩

theorem Restores.front {event : Event} {σ' : Situation} (dropped : σ.bitmap.keepNext = false)
    (first : Situation.Step resolver σ event task σ₁)
    (undefined : σ.modifiers.referenceWidth? = none) (fresh : task ≠ .reuses)
    (told : ∀ kind walk referable, task = .opens kind walk referable →
      subset.Tells kind walk referable (Action.upcoming actions).length (Action.given actions))
    (more : subset.Restores resolver (σ₁.record task data) [] events actions σ') :
    subset.Restores resolver σ [] (event :: events) (⟨task, data⟩ :: actions) σ' := by
  refine .cons data (Situation.task_of_step first) (fun _ _ _ _ => undefined) told
    (fun reuses => absurd reuses fresh) ?_
  simpa only [dropped, Bool.false_eq_true, false_and, and_false, if_false] using more

theorem RestoresFrom.element (here : template.ops.toList.drop position = .element code :: rest)
    (dropped : σ.bitmap.keepNext = false) (undefined : σ.modifiers.referenceWidth? = none)
    (step : Situation.Step resolver σ (.element code) task σ₁)
    (more : subset.RestoresFrom resolver template (position + 1) (σ₁.record task data) actions) :
    subset.RestoresFrom resolver template position σ (⟨task, data⟩ :: actions) := by
  obtain ⟨events, σ', σ'', plays, restores, settled⟩ := more
  refine ⟨_, σ', σ'', .element (Walk.next_at_top here) plays,
    .front dropped step undefined ?_ ?_ restores, settled⟩
  · rintro rfl
    cases step
  · rintro kind walk referable rfl
    cases step

theorem RestoresFrom.operator (here : template.ops.toList.drop position = .operator code :: rest)
    (dropped : σ.bitmap.keepNext = false) (undefined : σ.modifiers.referenceWidth? = none)
    (step : Situation.Step resolver σ (.operator ⟨template, position + 1, []⟩ code) task σ₁)
    (fresh : task ≠ .reuses)
    (told : ∀ kind walk referable, task = .opens kind walk referable →
      subset.Tells kind walk referable (Action.upcoming actions).length (Action.given actions))
    (more : subset.RestoresFrom resolver template (position + 1) (σ₁.record task data) actions) :
    subset.RestoresFrom resolver template position σ (⟨task, data⟩ :: actions) := by
  obtain ⟨events, σ', σ'', plays, restores, settled⟩ := more
  exact ⟨_, σ', σ'', .operator (Walk.next_at_top here) plays,
    .front dropped step undefined fresh told restores, settled⟩

end Subset

/-! ## Behind observations -/

def Situation.behind (codes : List Descriptor) (kind? : Option BitmapKind) (phase : Bitmap.Phase) :
    Situation :=
  ⟨.none, ⟨kind?, phase, false, .none⟩, codes.toArray, (List.range codes.length).toArray⟩

namespace Situation

variable {codes : List Descriptor} {kind? : Option BitmapKind} {phase : Bitmap.Phase}

theorem settle_behind_selected {targets : Array Nat} {used : Nat} :
    (behind codes kind? (.selected targets used)).settle =
      .ok (behind codes kind? (.selected targets used)) := rfl

end Situation

namespace Subset

variable {subset : Subset} {actions : List Action} {codes : List Descriptor}
  {kind? : Option BitmapKind} {available : Nat} {before : Array Bool} {present : List Bool}

theorem Restores.entries {σ' : Situation}
    (more : subset.Restores resolver
      (.behind codes kind? (.collecting available (before ++ present.toArray))) [] events actions σ') :
    subset.Restores resolver (.behind codes kind? (.collecting available before)) []
      (List.replicate present.length (.element .dataPresent) ++ events)
      (present.map (fun entry => ⟨.entry, entry⟩) ++ actions) σ' := by
  induction present generalizing before with
  | nil => simpa using more
  | cons entry present ih =>
      have step : Situation.Step resolver (.behind codes kind? (.collecting available before))
          (.element .dataPresent) .entry (.behind codes kind? (.collecting available before)) :=
        .entry rfl rfl
      exact .front rfl step rfl nofun nofun (@ih (before.push entry) (by simpa using more))

theorem RestoresFrom.entries (layout : EntrySteps resolver steps present.length)
    (here : template.ops.toList.drop position = steps ++ rest)
    (more : subset.RestoresFrom resolver template (position + steps.length)
      (.behind codes kind? (.collecting available present.toArray)) actions) :
    subset.RestoresFrom resolver template position (.behind codes kind? (.collecting available #[]))
      (present.map (fun entry => ⟨.entry, entry⟩) ++ actions) := by
  obtain ⟨events, σ', σ'', plays, restores, settled⟩ := more
  exact ⟨_, σ', σ'', layout.plays here plays, .entries (by simpa using restores), settled⟩

end Subset

end Bufr
