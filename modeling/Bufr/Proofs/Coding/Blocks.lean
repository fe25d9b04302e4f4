import Bufr.Proofs.Coding.Entries

/-!
Templates whose bitmaps stand outside replications, with their entries right behind them, and logs
whose bitmaps can be told from the attributes in the subset.
-/

namespace Bufr

open Situation (Log)
open Bufr.Action (upcoming given)

/-- Steps with bitmaps outside replications only. An operator that opens a bitmap has its entries
behind it, or the one that puts the kept bitmap in its place. -/
inductive Blocks (resolver : Resolver) : List Opcode → Prop where
  | nil : Blocks resolver []
  | element {code rest} (more : Blocks resolver rest) : Blocks resolver (.element code :: rest)
  | operator {code rest} (entries : ∀ kind, Operator.ofDescriptor code = .ok (.bitmap kind) →
        EntryRun resolver rest ∨ ∃ reuse behind, rest = .operator reuse :: behind ∧
          Operator.ofDescriptor reuse = .ok .reuseBitmap)
      (more : Blocks resolver rest) : Blocks resolver (.operator code :: rest)
  | fixed {code passes body rest} (counted : resolver.repetition code = .ok ⟨passes, false⟩)
      (inner : Nested resolver body)
      (plain : ∀ code kind, .operator code ∈ body → Operator.ofDescriptor code ≠ .ok (.bitmap kind))
      (more : Blocks resolver rest) :
      Blocks resolver (.replication code body.length :: (body ++ rest))
  | delayed {code unused count body rest} (counted : resolver.repetition code = .ok ⟨unused, true⟩)
      (inner : Nested resolver body)
      (plain : ∀ code kind, .operator code ∈ body → Operator.ofDescriptor code ≠ .ok (.bitmap kind))
      (more : Blocks resolver rest) :
      Blocks resolver (.replication code body.length :: .element count :: (body ++ rest))

/-! ## Bitmaps that the subset tells -/

instance (task : Task) : Decidable task.Settles :=
  match task with
  | .skip .. | .unlisted .. | .value .. | .attach .. | .opens .. | .cancels => .isTrue trivial
  | .define .. | .entry | .count .. | .reuses | .other => .isFalse nofun

namespace Subset

/-- Among the last `count` referable variables those have an attribute under a code of the bitmap
that got one from it. The codes of a quality bitmap are those of class 33 behind it. -/
def Tells (subset : Subset) (kind : BitmapKind) (walk : Walk) (referable : Array Nat) (count : Nat)
    (given : List Nat) : Prop :=
  ∀ i ∈ Situation.window referable referable.size count, ∀ v, subset.vars[i]? = some v →
    (kind.marks v (Lookahead.qualityCodes [] (walk.template.ops.toList.drop walk.position)) ↔
      i ∈ given)

instance (subset : Subset) (kind : BitmapKind) (walk : Walk) (referable : Array Nat) (count : Nat)
    (given : List Nat) : Decidable (subset.Tells kind walk referable count given) :=
  inferInstanceAs (Decidable (∀ i ∈ Situation.window referable referable.size count,
    ∀ v ∈ subset.vars[i]?,
      (kind.marks v (Lookahead.qualityCodes [] (walk.template.ops.toList.drop walk.position)) ↔
        i ∈ given)))

/-- No bitmap of the log is lost when the subset is all that is left of it. The list has the
variables that got an attribute from the kept bitmap where it was new. -/
inductive Restores (resolver : Resolver) (subset : Subset) :
    Situation → List Nat → List Event → List Action → Situation → Prop where
  | nil {σ kept} : Restores resolver subset σ kept [] [] σ
  | cons {σ σ₁ σ' kept event events task actions} (data : task.Data)
      (first : σ.task resolver event = .ok (task, σ₁))
      (undefined : ∀ kind walk referable, task = .opens kind walk referable →
        σ.modifiers.referenceWidth? = none)
      (told : ∀ kind walk referable, task = .opens kind walk referable →
        subset.Tells kind walk referable (upcoming actions).length (given actions))
      (again : task = .reuses → ∀ i ∈ given actions, i ∈ kept)
      (more : Restores resolver subset (σ₁.record task data)
        (if σ.bitmap.isCollecting ∧ σ.bitmap.keepNext ∧ task.Settles then
          given (⟨task, data⟩ :: actions)
        else kept) events actions σ') :
      Restores resolver subset σ kept (event :: events) (⟨task, data⟩ :: actions) σ'

variable {resolver : Resolver} {subset : Subset} {σ σ' : Situation} {kept : List Nat}
  {events front back : List Event} {actions : List Action}

theorem Restores.log (restores : Restores resolver subset σ kept events actions σ') :
    Log resolver σ events actions σ' := by
  induction restores with
  | nil => exact .nil
  | cons data first _ _ _ _ ih => exact .cons data first ih

theorem Restores.split (restores : Restores resolver subset σ kept (front ++ back) actions σ') :
    ∃ actions₁ actions₂ σ₁ kept₁, actions = actions₁ ++ actions₂ ∧
      Log resolver σ front actions₁ σ₁ ∧ Restores resolver subset σ₁ kept₁ back actions₂ σ' := by
  induction front generalizing σ kept actions with
  | nil => exact ⟨[], actions, σ, kept, rfl, .nil, restores⟩
  | cons event front ih =>
      cases restores with
      | cons data first _ _ _ more =>
          obtain ⟨actions₁, actions₂, σ₁, kept₁, rfl, log, rest⟩ := ih more
          exact ⟨_ :: actions₁, actions₂, σ₁, kept₁, rfl, .cons data first log, rest⟩

/-! ## Looking ahead from every bitmap -/

def Foresees (resolver : Resolver) (subset : Subset) : Nat → List Action → Prop
  | _, [] => True
  | taken, action :: rest =>
    (∀ kind walk referable, action.task = .opens kind walk referable →
      (upcoming rest).length ≤ referable.size ∧
        Foreseen resolver walk.template subset walk.position taken
          (walk.template.ops.toList.drop walk.position) rest) ∧
    subset.Foresees resolver (taken + action.fresh?.toList.length) rest

variable {taken : Nat} {template : Template} {position : Nat} {steps : List Opcode}

theorem Holds.tail {action : Action} (holds : subset.Holds taken (action :: actions)) :
    subset.Holds (taken + action.fresh?.toList.length) actions := by
  cases fresh : action.fresh? with
  | none => exact holds.of_silent fresh
  | some u => exact (holds.of_fresh fresh).2

theorem length_fresh (action : Action) (actions : List Action) :
    ((action :: actions).filterMap Action.fresh?).length =
      action.fresh?.toList.length + (actions.filterMap Action.fresh?).length := by
  rw [List.filterMap_cons]
  cases action.fresh? with
  | none => simp
  | some => rw [List.length_cons, Option.toList_some, List.length_singleton, Nat.add_comm]

theorem Holds.of_append {more : List Action} (holds : subset.Holds taken (actions ++ more)) :
    subset.Holds (taken + (actions.filterMap Action.fresh?).length) more := by
  induction actions generalizing taken with
  | nil => exact holds
  | cons action actions ih =>
      rw [length_fresh, ← Nat.add_assoc]
      exact ih holds.tail

theorem foresees_append {more : List Action}
    (plain : ∀ action ∈ actions, ∀ kind walk referable, action.task ≠ .opens kind walk referable)
    (rest : subset.Foresees resolver (taken + (actions.filterMap Action.fresh?).length) more) :
    subset.Foresees resolver taken (actions ++ more) := by
  induction actions generalizing taken with
  | nil => exact rest
  | cons action actions ih =>
      obtain ⟨first, others⟩ := List.forall_mem_cons.1 plain
      rw [length_fresh, ← Nat.add_assoc] at rest
      exact ⟨fun kind walk referable opens => absurd opens (first kind walk referable), ih others rest⟩

theorem plain_of_log (log : Log resolver σ events actions σ') {body : List Opcode}
    (inside : ∀ event ∈ events, event.IsFrom body)
    (plain : ∀ code kind, .operator code ∈ body → Operator.ofDescriptor code ≠ .ok (.bitmap kind)) :
    ∀ action ∈ actions, ∀ kind walk referable, action.task ≠ .opens kind walk referable := by
  induction log with
  | nil => exact nofun
  | cons data first more ih =>
      obtain ⟨firstInside, others⟩ := List.forall_mem_cons.1 inside
      refine List.forall_mem_cons.2 ⟨?_, ih others⟩
      rintro kind walk referable rfl
      cases Situation.step_of_task first with
      | opens op => exact plain _ _ firstInside op

theorem foresees_replicated {body : List Opcode} {passes : UInt64} {again : Walk}
    (inner : Nested resolver body)
    (plain : ∀ code kind, .operator code ∈ body → Operator.ofDescriptor code ≠ .ok (.bitmap kind))
    (here : template.ops.toList.drop position = body ++ steps)
    (replicated : Walk.replicate ⟨template, position, []⟩ body.length passes = .ok again)
    (plays : again.Plays resolver events)
    (restores : Restores resolver subset σ kept events actions σ')
    (holds : subset.Holds taken actions) (words : ∀ action ∈ actions, action.task.IsWord)
    (rest : ∀ {events σ kept actions taken},
      Walk.Plays resolver ⟨template, position + body.length, []⟩ events →
      Restores resolver subset σ kept events actions σ' → subset.Holds taken actions →
      (∀ action ∈ actions, action.task.IsWord) → subset.Foresees resolver taken actions) :
    subset.Foresees resolver taken actions := by
  obtain ⟨fronts, back, rfl, -, inside, behind⟩ := Walk.plays_replicate
    (P := fun front => ∀ event ∈ front, event.IsFrom body) replicated
    (fun frame events start stop plays => by
      have room : Walk.HasRoom position body.length [frame] := fun _ same => by cases same; omega
      exact Walk.plays_nested inner here room plays) plays
  obtain ⟨actions₁, actions₂, σ₁, kept₁, rfl, log, restores⟩ := restores.split
  have inside : ∀ event ∈ fronts.flatten, event.IsFrom body := by
    intro event mem
    obtain ⟨front, memFront, mem⟩ := List.mem_flatten.1 mem
    exact inside front memFront event mem
  exact foresees_append (plain_of_log log inside plain) (rest behind restores holds.of_append
    fun action mem => words action (List.mem_append_right _ mem))

theorem foreseen_of_reuse {reuse : Descriptor} (reuses : Operator.ofDescriptor reuse = .ok .reuseBitmap)
    (here : template.ops.toList.drop position = .operator reuse :: steps)
    (plays : Walk.Plays resolver ⟨template, position, []⟩ events)
    (log : Log resolver σ events actions σ') :
    upcoming actions = [] ∧
      Foreseen resolver template subset position taken (.operator reuse :: steps) actions := by
  obtain ⟨events, rfl, _⟩ := (Walk.plays_operator_iff (Walk.next_at_top here)).1 plays
  have other : reuse ≠ .operator 36 0 := by
    rintro rfl
    cases reuses
  cases log with
  | cons data first =>
      cases Situation.step_of_task first with
      | reuse op =>
          -- Of all operators, looking ahead passes over the one that keeps a bitmap only.
          refine ⟨rfl, position, fun counted => ?_, by rw [here]⟩
          rw [Lookahead.entries_of_drop here]
          exact if_neg other
      | modify op | insert op | opens op | marker op | keep op | forget op | cancel op =>
          cases op.symm.trans reuses

theorem foreseen_of_opens (opened : EntryRun resolver steps ∨ ∃ reuse behind,
      steps = .operator reuse :: behind ∧ Operator.ofDescriptor reuse = .ok .reuseBitmap)
    (here : template.ops.toList.drop position = steps)
    (plays : Walk.Plays resolver ⟨template, position, []⟩ events) {available : Nat}
    (open_ : σ.AtEntries available #[]) (log : Log resolver σ events actions σ')
    (settled : ∃ σ₁, σ'.settle = .ok σ₁) (holds : subset.Holds taken actions)
    (words : ∀ action ∈ actions, action.task.IsWord) :
    (upcoming actions).length ≤ available ∧
      Foreseen resolver template subset position taken steps actions := by
  rcases opened with run | ⟨reuse, behind, rfl, reuses⟩
  · obtain ⟨enough, foreseen⟩ := foreseen_entries run here plays open_ log settled holds words
    rw [Array.size_empty, Nat.zero_add] at enough
    exact ⟨enough, foreseen⟩
  · obtain ⟨none, foreseen⟩ : upcoming actions = [] ∧
        Foreseen resolver template subset position taken (.operator reuse :: behind) actions :=
      foreseen_of_reuse reuses here plays log
    exact ⟨none ▸ Nat.zero_le _, foreseen⟩

theorem foresees_of_blocks (blocks : Blocks resolver steps)
    (here : template.ops.toList.drop position = steps)
    (plays : Walk.Plays resolver ⟨template, position, []⟩ events)
    (restores : Restores resolver subset σ kept events actions σ')
    (settled : ∃ σ₁, σ'.settle = .ok σ₁) (holds : subset.Holds taken actions)
    (words : ∀ action ∈ actions, action.task.IsWord) : subset.Foresees resolver taken actions := by
  have tail {action : Action} {actions : List Action}
      (words : ∀ other ∈ action :: actions, other.task.IsWord) :
      ∀ other ∈ actions, other.task.IsWord :=
    fun other mem => words other (List.mem_cons_of_mem _ mem)
  -- Only operators open bitmaps; everything else hands what is foreseen on to what comes behind it.
  induction blocks generalizing position events σ kept actions taken with
  | nil =>
      cases (Walk.plays_done_iff (Walk.next_at_end here)).1 plays
      cases restores
      trivial
  | element _ ih =>
      obtain ⟨events, rfl, more⟩ := (Walk.plays_element_iff (Walk.next_at_top here)).1 plays
      cases restores with
      | cons data first _ _ _ rest =>
          refine ⟨?_, ih (Walk.drop_succ here) more rest holds.tail (tail words)⟩
          rintro kind walk referable rfl
          cases Situation.step_of_task first
  | @operator code steps entries _ ih =>
      obtain ⟨events, rfl, more⟩ := (Walk.plays_operator_iff (Walk.next_at_top here)).1 plays
      cases restores with
      | cons data first undefined _ _ rest =>
          refine ⟨?_, ih (Walk.drop_succ here) more rest holds.tail (tail words)⟩
          rintro kind walk referable rfl
          have defines := undefined kind walk referable rfl
          have behind := Walk.drop_succ here
          cases Situation.step_of_task first with
          | opens op settles =>
              obtain ⟨bitmap, _, rfl⟩ := Situation.settle_ok_iff.1 settles
              have open_ : { σ with bitmap := bitmap.start kind σ.referable.size }.AtEntries
                  σ.referable.size #[] := ⟨rfl, defines⟩
              exact behind.symm ▸ foreseen_of_opens (entries kind op) behind more open_ rest.log
                settled holds.tail (tail words)
  | fixed counted inner plain _ ih =>
      obtain ⟨again, replicated, more⟩ :=
        (Walk.plays_fixed_iff (Walk.next_at_top here) counted).1 plays
      have behind := Walk.drop_succ here
      exact foresees_replicated inner plain behind replicated more restores holds words
        fun plays restores holds words =>
          ih (Walk.drop_append behind) plays restores holds words
  | delayed counted inner plain _ ih =>
      obtain ⟨_, _, passes, again, events, nextCount, _, replicated, rfl, more⟩ :=
        (Walk.plays_delayed_iff (Walk.next_at_top here) counted).1 plays
      have afterCount := Walk.drop_succ here
      cases nextCount.symm.trans (Walk.next_at_top afterCount)
      have behind := Walk.drop_succ afterCount
      cases restores with
      | cons data first _ _ _ rest =>
          refine ⟨?_, foresees_replicated inner plain behind replicated more rest holds.tail (tail words)
            fun plays restores holds words => ih (Walk.drop_append behind) plays restores holds words⟩
          rintro kind walk referable rfl
          cases Situation.step_of_task first

end Subset

end Bufr
