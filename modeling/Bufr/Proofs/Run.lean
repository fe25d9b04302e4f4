import Bufr.Proofs.Outcome
import Bufr.Template.Traversal
import Mathlib.Logic.Relation

/-!
A run of a coder in two parts. The walk over the template plays a list of events, which depends on
the counts of delayed replications and on nothing else that a coder does; the coder answers the
events one after the other. Two coders that find the same counts answer the same events.
-/

namespace Bufr

inductive Event where
  | element (code : Descriptor)
  | operator (walk : Walk) (code : Descriptor)
  | count (replication code : Descriptor) (passes : UInt64)

namespace Walk

/-- What replication makes of a walk. The body is left out, or it is entered in a frame of its own. -/
inductive Replicates (walk : Walk) (span : Nat) (passes : UInt64) : Walk → Prop where
  | skipped (nothing : passes = 0 ∨ span = 0) :
      Replicates walk span passes { walk with position := walk.position + span }
  | entered (frame : Frame) (start : frame.start = walk.position)
      (stop : frame.stop = walk.position + span) (remaining : frame.remaining = passes.toNat)
      (positive : passes.toNat ≠ 0) (nonempty : span ≠ 0) :
      Replicates walk span passes { walk with frames := frame :: walk.frames }

theorem exists_replicates {walk : Walk} {span : Nat} (fits : walk.position + span ≤ walk.template.size)
    (passes : UInt64) :
    ∃ again, walk.replicate span passes = .ok again ∧ walk.Replicates span passes again := by
  by_cases nothing : passes = 0 ∨ span = 0
  · refine ⟨_, ?_, .skipped nothing⟩
    rw [replicate, if_neg (Nat.not_lt.2 fits), dif_pos nothing]
  · refine ⟨_, by rw [replicate, if_neg (Nat.not_lt.2 fits), dif_neg nothing], ?_⟩
    refine .entered _ rfl rfl rfl (fun zero => nothing (Or.inl ?_)) fun empty => nothing (Or.inr empty)
    exact UInt64.toNat_inj.1 zero

theorem replicates_of_replicate {walk again : Walk} {span : Nat} {passes : UInt64}
    (replicated : walk.replicate span passes = .ok again) : walk.Replicates span passes again := by
  by_cases fits : walk.template.size < walk.position + span
  · rw [replicate, if_pos fits] at replicated
    cases replicated
  · obtain ⟨again', same, way⟩ := exists_replicates (Nat.not_lt.1 fits) passes
    cases replicated.symm.trans same
    exact way

inductive Plays (resolver : Resolver) : Walk → List Event → Prop where
  | done {walk} (ended : walk.next = none) : Plays resolver walk []
  | element {walk rest code events} (next : walk.next = some (.element code, rest))
      (more : Plays resolver rest events) : Plays resolver walk (.element code :: events)
  | operator {walk rest code events} (next : walk.next = some (.operator code, rest))
      (more : Plays resolver rest events) : Plays resolver walk (.operator rest code :: events)
  | fixed {walk rest again code span passes events}
      (next : walk.next = some (.replication code span, rest))
      (counted : resolver.repetition code = .ok ⟨passes, false⟩)
      (replicated : rest.replicate span passes.toUInt64 = .ok again)
      (more : Plays resolver again events) : Plays resolver walk events
  | delayed {walk rest behind again code span unused element passes events}
      (next : walk.next = some (.replication code span, rest))
      (counted : resolver.repetition code = .ok ⟨unused, true⟩)
      (nextCount : rest.next = some (.element element, behind)) (isCount : element.isCount)
      (replicated : behind.replicate span passes = .ok again)
      (more : Plays resolver again events) :
      Plays resolver walk (.count code element passes :: events)

variable {resolver : Resolver} {walk rest : Walk} {code : Descriptor} {span : Nat}
  {events : List Event}

theorem Plays.congr {walk' : Walk} (same : walk.next = walk'.next)
    (plays : walk.Plays resolver events) : walk'.Plays resolver events := by
  cases plays with
  | done ended => exact .done (same ▸ ended)
  | element next more => exact .element (same ▸ next) more
  | operator next more => exact .operator (same ▸ next) more
  | fixed next counted replicated more => exact .fixed (same ▸ next) counted replicated more
  | delayed next counted nextCount isCount replicated more =>
      exact .delayed (same ▸ next) counted nextCount isCount replicated more

theorem plays_done_iff (ended : walk.next = none) : walk.Plays resolver events ↔ events = [] := by
  constructor
  · intro plays
    cases plays with
    | done => rfl
    | element next | operator next | fixed next | delayed next => cases ended.symm.trans next
  · rintro rfl
    exact .done ended

theorem plays_element_iff (next : walk.next = some (.element code, rest)) :
    walk.Plays resolver events ↔
      ∃ more, events = .element code :: more ∧ rest.Plays resolver more := by
  constructor
  · intro plays
    cases plays with
    | element found more =>
        cases next.symm.trans found
        exact ⟨_, rfl, more⟩
    | done ended => cases next.symm.trans ended
    | operator found | fixed found | delayed found => cases next.symm.trans found
  · rintro ⟨_, rfl, more⟩
    exact .element next more

theorem plays_operator_iff (next : walk.next = some (.operator code, rest)) :
    walk.Plays resolver events ↔
      ∃ more, events = .operator rest code :: more ∧ rest.Plays resolver more := by
  constructor
  · intro plays
    cases plays with
    | operator found more =>
        cases next.symm.trans found
        exact ⟨_, rfl, more⟩
    | done ended => cases next.symm.trans ended
    | element found | fixed found | delayed found => cases next.symm.trans found
  · rintro ⟨_, rfl, more⟩
    exact .operator next more

theorem plays_fixed_iff {passes : UInt8} (next : walk.next = some (.replication code span, rest))
    (counted : resolver.repetition code = .ok ⟨passes, false⟩) :
    walk.Plays resolver events ↔
      ∃ again, rest.replicate span passes.toUInt64 = .ok again ∧ again.Plays resolver events := by
  constructor
  · intro plays
    cases plays with
    | fixed found counted' replicated more =>
        cases next.symm.trans found
        cases counted.symm.trans counted'
        exact ⟨_, replicated, more⟩
    | delayed found counted' =>
        cases next.symm.trans found
        cases counted.symm.trans counted'
    | done ended => cases next.symm.trans ended
    | element found | operator found => cases next.symm.trans found
  · rintro ⟨_, replicated, more⟩
    exact .fixed next counted replicated more

theorem plays_delayed_iff {unused : UInt8} (next : walk.next = some (.replication code span, rest))
    (counted : resolver.repetition code = .ok ⟨unused, true⟩) :
    walk.Plays resolver events ↔
      ∃ element behind passes again more, rest.next = some (.element element, behind) ∧
        element.isCount ∧ behind.replicate span passes = .ok again ∧
        events = .count code element passes :: more ∧ again.Plays resolver more := by
  constructor
  · intro plays
    cases plays with
    | delayed found counted' nextCount isCount replicated more =>
        cases next.symm.trans found
        exact ⟨_, _, _, _, _, nextCount, isCount, replicated, rfl, more⟩
    | fixed found counted' =>
        cases next.symm.trans found
        cases counted.symm.trans counted'
    | done ended => cases next.symm.trans ended
    | element found | operator found => cases next.symm.trans found
  · rintro ⟨_, _, _, _, _, nextCount, isCount, replicated, rfl, more⟩
    exact .delayed next counted nextCount isCount replicated more

end Walk

namespace Coder

variable {State : Type} {coder : Coder State} {resolver : Resolver}

def Answers (coder : Coder State) : Event → State → State → Prop
  | .element code, s, s' => coder.element code s = .ok s'
  | .operator walk code, s, s' => coder.operator walk code s = .ok s'
  | .count replication code passes, s, s' => coder.count replication code s = .ok (passes, s')

inductive AnswersAll (coder : Coder State) : List Event → State → State → Prop where
  | nil {s} : AnswersAll coder [] s s
  | cons {event events s s₁ s'} (first : coder.Answers event s s₁)
      (more : AnswersAll coder events s₁ s') : AnswersAll coder (event :: events) s s'

theorem delayed_eq_ok {code : Descriptor} {span : Nat} {walk again : Walk} {s s' : State}
    (h : coder.delayed code span walk s = .ok (again, s')) :
    ∃ element behind count, walk.next = some (.element element, behind) ∧ element.isCount ∧
      coder.count code element s = .ok (count, s') ∧ behind.replicate span count = .ok again := by
  unfold delayed at h
  split at h
  next element behind next =>
    split at h
    next isCount =>
      split at h
      · cases h
      next count s₁ coded =>
        split at h
        · cases h
        next again' replicated =>
          cases h
          exact ⟨element, behind, count, next, isCount, coded, replicated⟩
    · cases h
  · cases h

theorem replication_eq_ok {code : Descriptor} {span : Nat} {rest again : Walk} {s s' : State}
    (h : coder.replication resolver code span rest s = .ok (again, s')) :
    (∃ passes, resolver.repetition code = .ok ⟨passes, false⟩ ∧
      rest.replicate span passes.toUInt64 = .ok again ∧ s' = s) ∨
    (∃ passes, resolver.repetition code = .ok ⟨passes, true⟩ ∧
      coder.delayed code span rest s = .ok (again, s')) := by
  unfold replication at h
  split at h
  · cases h
  next repetition counted =>
    obtain ⟨passes, delayed⟩ := repetition
    cases delayed with
    | true => exact Or.inr ⟨passes, counted, h⟩
    | false =>
        simp only [Bool.false_eq_true, ↓reduceIte] at h
        split at h
        · cases h
        next replicated =>
          cases h
          exact Or.inl ⟨passes, counted, replicated, rfl⟩

theorem done_of_step {walk : Walk} {s s' : State}
    (h : coder.step resolver walk s = .ok (none, s')) : walk.next = none ∧ s' = s := by
  unfold step at h
  split at h
  next ended =>
    cases h
    exact ⟨ended, rfl⟩
  all_goals
    obtain ⟨_, _, same⟩ := map_eq_ok h
    cases same

inductive Steps (coder : Coder State) (resolver : Resolver) : Walk → State → Walk → State → Prop where
  | element {walk rest code s s'} (next : walk.next = some (.element code, rest))
      (answered : coder.Answers (.element code) s s') : Steps coder resolver walk s rest s'
  | operator {walk rest code s s'} (next : walk.next = some (.operator code, rest))
      (answered : coder.Answers (.operator rest code) s s') : Steps coder resolver walk s rest s'
  | fixed {walk rest again code span passes s}
      (next : walk.next = some (.replication code span, rest))
      (counted : resolver.repetition code = .ok ⟨passes, false⟩)
      (replicated : rest.replicate span passes.toUInt64 = .ok again) :
      Steps coder resolver walk s again s
  | delayed {walk rest behind again code span unused element passes s s'}
      (next : walk.next = some (.replication code span, rest))
      (counted : resolver.repetition code = .ok ⟨unused, true⟩)
      (nextCount : rest.next = some (.element element, behind)) (isCount : element.isCount)
      (answered : coder.Answers (.count code element passes) s s')
      (replicated : behind.replicate span passes = .ok again) :
      Steps coder resolver walk s again s'

theorem steps_of_step {walk walk' : Walk} {s s' : State}
    (h : coder.step resolver walk s = .ok (some walk', s')) :
    coder.Steps resolver walk s walk' s' := by
  unfold step at h
  split at h
  · cases h
  next next =>
    obtain ⟨_, coded, same⟩ := map_eq_ok h
    cases same
    exact .element next coded
  next next =>
    obtain ⟨_, coded, same⟩ := map_eq_ok h
    cases same
    exact .operator next coded
  next next =>
    obtain ⟨⟨again, s₁⟩, entered, same⟩ := map_eq_ok h
    cases same
    rcases replication_eq_ok entered with ⟨passes, counted, replicated, rfl⟩ | ⟨unused, counted, entered⟩
    · exact .fixed next counted replicated
    · obtain ⟨element, behind, count, nextCount, isCount, coded, replicated⟩ := delayed_eq_ok entered
      exact .delayed next counted nextCount isCount coded replicated

theorem events_of_step {walk walk₁ : Walk} {s s₁ s' : State} {events : List Event}
    (h : coder.step resolver walk s = .ok (some walk₁, s₁)) (plays : walk₁.Plays resolver events)
    (answers : coder.AnswersAll events s₁ s') :
    ∃ events, walk.Plays resolver events ∧ coder.AnswersAll events s s' := by
  cases steps_of_step h with
  | element next answered => exact ⟨_, .element next plays, .cons answered answers⟩
  | operator next answered => exact ⟨_, .operator next plays, .cons answered answers⟩
  | fixed next counted replicated => exact ⟨_, .fixed next counted replicated plays, answers⟩
  | delayed next counted nextCount isCount answered replicated =>
      exact ⟨_, .delayed next counted nextCount isCount replicated plays, .cons answered answers⟩

theorem events_of_run {walk : Walk} {s s' : State} (h : coder.run resolver walk s = .ok s') :
    ∃ events, walk.Plays resolver events ∧ coder.AnswersAll events s s' := by
  induction walk, s using run.induct coder resolver with
  | case1 walk s e failed => rw [run, failed] at h; cases h
  | case2 walk s s₁ stepped =>
      rw [run, stepped] at h
      cases h
      obtain ⟨ended, rfl⟩ := done_of_step stepped
      exact ⟨[], .done ended, .nil⟩
  | case3 walk s walk₁ s₁ stepped ih =>
      rw [run, stepped] at h
      obtain ⟨events, plays, answers⟩ := ih h
      exact events_of_step stepped plays answers

theorem step_of_steps {walk walk' : Walk} {s s' : State}
    (steps : coder.Steps resolver walk s walk' s') :
    coder.step resolver walk s = .ok (some walk', s') := by
  cases steps with
  | element next answered =>
      simp only [Answers] at answered
      simp only [step, next, answered, Except.map]
  | operator next answered =>
      simp only [Answers] at answered
      simp only [step, next, answered, Except.map]
  | fixed next counted replicated =>
      simp [step, next, replication, counted, replicated, Except.map]
  | delayed next counted nextCount isCount answered replicated =>
      simp only [Answers] at answered
      simp [step, next, replication, counted, delayed, nextCount, isCount, answered, replicated,
        Except.map]

theorem step_congr {walk walk' : Walk} (same : walk.next = walk'.next) (s : State) :
    coder.step resolver walk s = coder.step resolver walk' s := by
  simp only [step, same]

theorem run_congr {walk walk' : Walk} (same : walk.next = walk'.next) (s : State) :
    coder.run resolver walk s = coder.run resolver walk' s := by
  rw [run, step_congr same s]
  exact (run.eq_def ..).symm

theorem run_of_steps {walk walk₁ : Walk} {s s₁ : State} {result : Except Error State}
    (steps : coder.Steps resolver walk s walk₁ s₁)
    (ran : coder.run resolver walk₁ s₁ = result) : coder.run resolver walk s = result := by
  rw [run, step_of_steps steps]
  exact ran

theorem run_of_events {walk : Walk} {events : List Event} {s s' : State}
    (plays : walk.Plays resolver events) (answers : coder.AnswersAll events s s') :
    coder.run resolver walk s = .ok s' := by
  induction plays generalizing s with
  | done ended =>
      cases answers
      rw [run, step, ended]
  | element next more ih =>
      cases answers with
      | cons first answers => exact run_of_steps (.element next first) (ih answers)
  | operator next more ih =>
      cases answers with
      | cons first answers => exact run_of_steps (.operator next first) (ih answers)
  | fixed next counted replicated more ih =>
      exact run_of_steps (.fixed next counted replicated) (ih answers)
  | delayed next counted nextCount isCount replicated more ih =>
      cases answers with
      | cons first answers =>
          exact run_of_steps (.delayed next counted nextCount isCount first replicated) (ih answers)

theorem run_eq_ok_iff {walk : Walk} {s s' : State} :
    coder.run resolver walk s = .ok s' ↔
      ∃ events, walk.Plays resolver events ∧ coder.AnswersAll events s s' :=
  ⟨events_of_run, fun ⟨_, plays, answers⟩ => run_of_events plays answers⟩

/-! ## Runs that fail -/

def Fails (coder : Coder State) (e : Error) : Event → State → Prop
  | .element code, s => coder.element code s = .error e
  | .operator walk code, s => coder.operator walk code s = .error e
  | .count replication code _, s => coder.count replication code s = .error e

inductive FailsWithin (coder : Coder State) (e : Error) : List Event → State → Prop where
  | here {event events s} (failed : coder.Fails e event s) : FailsWithin coder e (event :: events) s
  | later {event events s s₁} (first : coder.Answers event s s₁)
      (more : FailsWithin coder e events s₁) : FailsWithin coder e (event :: events) s

theorem run_of_failed_step {walk : Walk} {s : State} {e : Error}
    (failed : coder.step resolver walk s = .error e) : coder.run resolver walk s = .error e := by
  rw [run, failed]

theorem run_of_failure {walk : Walk} {events : List Event} {s : State} {e : Error}
    (plays : walk.Plays resolver events) (fails : coder.FailsWithin e events s) :
    coder.run resolver walk s = .error e := by
  induction plays generalizing s with
  | done => cases fails
  | element next more ih =>
      cases fails with
      | here failed =>
          simp only [Fails] at failed
          apply run_of_failed_step
          simp only [step, next, failed, Except.map]
      | later first fails => exact run_of_steps (.element next first) (ih fails)
  | operator next more ih =>
      cases fails with
      | here failed =>
          simp only [Fails] at failed
          apply run_of_failed_step
          simp only [step, next, failed, Except.map]
      | later first fails => exact run_of_steps (.operator next first) (ih fails)
  | fixed next counted replicated more ih =>
      exact run_of_steps (.fixed next counted replicated) (ih fails)
  | delayed next counted nextCount isCount replicated more ih =>
      cases fails with
      | here failed =>
          simp only [Fails] at failed
          apply run_of_failed_step
          simp [step, next, replication, counted, delayed, nextCount, isCount, failed, Except.map]
      | later first fails =>
          exact run_of_steps (.delayed next counted nextCount isCount first replicated) (ih fails)

/-! ## States on the way -/

def Reaches (coder : Coder State) (resolver : Resolver) : Walk × State → Walk × State → Prop :=
  Relation.ReflTransGen fun before after =>
    coder.step resolver before.1 before.2 = .ok (some after.1, after.2)

theorem invariant_of_reaches {P : Walk → State → Prop} {walk walk' : Walk} {s s' : State}
    (start : P walk s)
    (kept : ∀ walk₁ s₁ walk₂ s₂, coder.Reaches resolver (walk, s) (walk₁, s₁) → P walk₁ s₁ →
      coder.step resolver walk₁ s₁ = .ok (some walk₂, s₂) → P walk₂ s₂)
    (reached : coder.Reaches resolver (walk, s) (walk', s')) : P walk' s' := by
  generalize ended : (walk', s') = after at reached
  induction reached generalizing walk' s' with
  | refl =>
      cases ended
      exact start
  | tail reached stepped ih =>
      cases ended
      exact kept _ _ _ _ reached (ih rfl) stepped

theorem AnswersAll.trans {first second : List Event} {s s₁ s' : State}
    (before : coder.AnswersAll first s s₁) (after : coder.AnswersAll second s₁ s') :
    coder.AnswersAll (first ++ second) s s' := by
  induction before with
  | nil => exact after
  | cons one _ ih => exact .cons one (ih after)

theorem answers_of_step {walk walk' : Walk} {s s' : State}
    (h : coder.step resolver walk s = .ok (some walk', s')) :
    s' = s ∨ ∃ event, coder.Answers event s s' := by
  cases steps_of_step h with
  | element _ answered | operator _ answered | delayed _ _ _ _ answered =>
      exact Or.inr ⟨_, answered⟩
  | fixed => exact Or.inl rfl

theorem events_of_reaches {before after : Walk × State} (reached : coder.Reaches resolver before after) :
    ∃ events, coder.AnswersAll events before.2 after.2 := by
  induction reached with
  | refl => exact ⟨[], .nil⟩
  | tail _ stepped ih =>
      obtain ⟨events, answers⟩ := ih
      rcases answers_of_step stepped with same | ⟨event, answered⟩
      · exact ⟨events, same ▸ answers⟩
      · exact ⟨events ++ [event], answers.trans (.cons answered .nil)⟩

theorem run_of_reaches {before after : Walk × State} (reached : coder.Reaches resolver before after) :
    coder.run resolver before.1 before.2 = coder.run resolver after.1 after.2 := by
  induction reached with
  | refl => rfl
  | tail _ stepped ih => rw [ih, run, stepped]

theorem reaches_of_run {walk : Walk} {s s' : State} (h : coder.run resolver walk s = .ok s') :
    ∃ behind : Walk, coder.Reaches resolver (walk, s) (behind, s') ∧ behind.next = none := by
  induction walk, s using run.induct coder resolver with
  | case1 walk s e failed => rw [run, failed] at h; cases h
  | case2 walk s s₁ stepped =>
      rw [run, stepped] at h
      cases h
      obtain ⟨ended, rfl⟩ := done_of_step stepped
      exact ⟨walk, .refl, ended⟩
  | case3 walk s walk₁ s₁ stepped ih =>
      rw [run, stepped] at h
      obtain ⟨behind, reached, ended⟩ := ih h
      exact ⟨behind, .head stepped reached, ended⟩

end Coder

end Bufr
