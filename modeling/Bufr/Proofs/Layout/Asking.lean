import Bufr.Proofs.Layout.Subsets

/-!
The events of an unrolled chain. A walk over the steps of a chain asks for just these, given the
counts among them.
-/

namespace Bufr

def Event.IsPlain : Event → Prop
  | .element _ => True
  | .operator .. => False
  | .count _ code _ => code.isCount

def Event.opcode : Event → Opcode
  | .element code => .element code
  | .operator _ code => .operator code
  | .count _ code _ => .element code

/-- The events at the steps of the unrolled chain, with the counts that unroll it. -/
def Chain.Asks (resolver : Resolver) (chain : Chain) (events : List Event) : Prop :=
  ∃ steps, Shows resolver steps events ∧
    ∀ supply, Unrolls resolver chain (Event.counts events ++ₛ supply) steps supply

variable {resolver : Resolver} {chain : Chain} {steps : List Opcode}

theorem Expands.mem_of_unrolls {supply left : Stream' UInt64} {unrolled : List Opcode} {op : Opcode}
    (flat : Expands resolver chain steps) (unrolls : Unrolls resolver chain supply unrolled left)
    (mem : op ∈ unrolled) : op ∈ steps := by
  have passed {chain : Chain} {body : List Opcode} {passes : Nat} {supply left : Stream' UInt64}
      {unrolled : List Opcode} (below : ∀ supply unrolled left,
        Unrolls resolver chain supply unrolled left → op ∈ unrolled → op ∈ body)
      (repeats : Repeats resolver passes chain supply unrolled left) (mem : op ∈ unrolled) :
      op ∈ body := by
    induction passes generalizing supply unrolled with
    | zero =>
        cases repeats
        cases mem
    | succ passes ih =>
        cases repeats with
        | succ first more => exact (List.mem_append.1 mem).elim (below _ _ _ first) (ih more)
  refine flat.unrolls_induction unrolls (motive := fun steps _ unrolled _ => op ∈ unrolled → op ∈ steps)
    (fun _ => id) ?append (fun _ _ => id) (fun _ _ => id) ?fixed ?delayed mem
  case append =>
    intro _ _ _ _ _ _ _ first second mem
    exact List.mem_append.2 ((List.mem_append.1 mem).imp first second)
  case fixed =>
    intro _ _ _ _ _ _ _ _ _ below repeats mem
    exact List.mem_cons.2 ((List.mem_cons.1 mem).imp_right (passed below repeats))
  case delayed =>
    intro _ _ _ _ _ _ _ _ _ _ below repeats mem
    refine List.mem_cons.2 ((List.mem_cons.1 mem).imp_right fun mem => ?_)
    exact List.mem_cons.2 ((List.mem_cons.1 mem).imp_right (passed below repeats))

theorem Shows.mem {events : List Event} {event : Event} (shows : Shows resolver steps events)
    (mem : event ∈ events) : event.opcode ∈ steps := by
  induction shows with
  | nil => cases mem
  | element _ ih | operator _ ih =>
      rcases List.mem_cons.1 mem with rfl | mem
      · exact List.mem_cons_self
      · exact List.mem_cons_of_mem _ (ih mem)
  | fixed _ _ ih => exact List.mem_cons_of_mem _ (ih mem)
  | delayed _ _ ih =>
      rcases List.mem_cons.1 mem with rfl | mem
      · exact List.mem_cons_of_mem _ List.mem_cons_self
      · exact List.mem_cons_of_mem _ (List.mem_cons_of_mem _ (ih mem))

theorem Chain.Asks.mem {events : List Event} {event : Event} (asks : chain.Asks resolver events)
    (flat : Expands resolver chain steps) (mem : event ∈ events) : event.opcode ∈ steps := by
  obtain ⟨unrolled, shows, unrolls⟩ := asks
  exact flat.mem_of_unrolls (unrolls (Stream'.const 0)) (shows.mem mem)

namespace Walk

theorem Plays.isCount_of_mem {walk : Walk} {events : List Event} {replication code : Descriptor}
    {passes : UInt64} (plays : walk.Plays resolver events)
    (mem : .count replication code passes ∈ events) : code.isCount := by
  induction plays with
  | done => cases mem
  | element _ _ ih | operator _ _ ih => exact ih (by simpa using mem)
  | fixed _ _ _ _ ih => exact ih mem
  | delayed _ _ _ isCount _ _ ih =>
      rcases List.mem_cons.1 mem with same | mem
      · cases same
        exact isCount
      · exact ih mem

inductive PlaysTo (resolver : Resolver) : Walk → List Event → Walk → Prop where
  | refl {walk} : PlaysTo resolver walk [] walk
  | element {walk rest behind code events} (next : walk.next = some (.element code, rest))
      (more : PlaysTo resolver rest events behind) :
      PlaysTo resolver walk (.element code :: events) behind
  | operator {walk rest behind code events} (next : walk.next = some (.operator code, rest))
      (more : PlaysTo resolver rest events behind) :
      PlaysTo resolver walk (.operator rest code :: events) behind
  | fixed {walk rest again behind code span passes events}
      (next : walk.next = some (.replication code span, rest))
      (counted : resolver.repetition code = .ok ⟨passes, false⟩)
      (replicated : rest.replicate span passes.toUInt64 = .ok again)
      (more : PlaysTo resolver again events behind) : PlaysTo resolver walk events behind
  | delayed {walk rest afterCount again behind code span unused element passes events}
      (next : walk.next = some (.replication code span, rest))
      (counted : resolver.repetition code = .ok ⟨unused, true⟩)
      (nextCount : rest.next = some (.element element, afterCount)) (isCount : element.isCount)
      (replicated : afterCount.replicate span passes = .ok again)
      (more : PlaysTo resolver again events behind) :
      PlaysTo resolver walk (.count code element passes :: events) behind

variable {walk behind : Walk} {events front back : List Event} {supply left : Stream' UInt64}

theorem PlaysTo.plays (before : walk.PlaysTo resolver front behind)
    (after : behind.Plays resolver back) : walk.Plays resolver (front ++ back) := by
  induction before with
  | refl => exact after
  | element next _ ih => exact .element next (ih after)
  | operator next _ ih => exact .operator next (ih after)
  | fixed next counted replicated _ ih => exact .fixed next counted replicated (ih after)
  | delayed next counted nextCount isCount replicated _ ih =>
      exact .delayed next counted nextCount isCount replicated (ih after)

theorem PlaysTo.reaches {State : Type} {coder : Coder State} {s s' : State}
    (plays : walk.PlaysTo resolver events behind) (answers : coder.AnswersAll events s s') :
    coder.Reaches resolver (walk, s) (behind, s') := by
  induction plays generalizing s with
  | refl =>
      cases answers
      exact .refl
  | element next _ ih =>
      cases answers with
      | cons first more => exact .head (Coder.step_of_steps (.element next first)) (ih more)
  | operator next _ ih =>
      cases answers with
      | cons first more => exact .head (Coder.step_of_steps (.operator next first)) (ih more)
  | fixed next counted replicated _ ih =>
      have stepped : coder.step resolver _ s = .ok (some _, s) :=
        Coder.step_of_steps (.fixed next counted replicated)
      exact .head stepped (ih answers)
  | delayed next counted nextCount isCount replicated _ ih =>
      cases answers with
      | cons first more =>
          exact .head (Coder.step_of_steps
            (.delayed next counted nextCount isCount first replicated)) (ih more)

def Faces (walk : Walk) : List Event → Prop
  | [] => walk.next = none
  | .element code :: _ => ∃ rest, walk.next = some (.element code, rest)
  | _ => True

theorem playsTo_of_trace
    (traced : trace resolver walk (Event.counts events ++ₛ supply) = .ok (steps, left))
    (shows : Shows resolver steps events) (parts : front ++ back = events)
    (plain : ∀ event ∈ front, event.IsPlain) :
    ∃ behind, walk.PlaysTo resolver front behind ∧ behind.Faces back := by
  generalize given : Event.counts events ++ₛ supply = counts at traced
  -- Along the trace. `front` can be over before any event, and then the walk faces the next one.
  fun_induction trace resolver walk counts generalizing front events steps with
  | case1 walk counts ended =>
      cases traced
      cases shows
      obtain ⟨rfl, rfl⟩ := List.append_eq_nil_iff.1 parts
      exact ⟨walk, .refl, ended⟩
  | case2 | case3 | case5 | case6 => cases traced
  | case4 walk counts code span rest next passes counted again replicated ih =>
      obtain ⟨⟨more, left⟩, onward, same⟩ := map_eq_ok_iff.1 traced
      cases same
      cases shows with
      | fixed _ shows =>
          obtain ⟨behind, plays, faces⟩ := ih shows parts plain given onward
          exact ⟨behind, .fixed next counted replicated plays, faces⟩
      | delayed counted' => cases counted.symm.trans counted'
  | case7 walk counts code span rest next unused counted op afterCount nextCount again replicated ih =>
      obtain ⟨⟨more, left⟩, onward, same⟩ := map_eq_ok_iff.1 traced
      cases same
      cases shows with
      | fixed counted' => cases counted.symm.trans counted'
      | delayed _ shows =>
          subst given
          cases front with
          | nil =>
              cases parts
              exact ⟨walk, .refl, trivial⟩
          | cons event front =>
              cases parts
              obtain ⟨isCount, plain⟩ := List.forall_mem_cons.1 plain
              obtain ⟨behind, plays, faces⟩ := ih shows rfl plain rfl onward
              exact ⟨behind, .delayed next counted nextCount isCount replicated plays, faces⟩
  | case8 walk counts op rest other next ih =>
      obtain ⟨⟨more, left⟩, onward, same⟩ := map_eq_ok_iff.1 traced
      cases same
      cases shows with
      | fixed | delayed => cases other _ _ rfl
      | element shows =>
          cases front with
          | nil =>
              cases parts
              exact ⟨walk, .refl, rest, next⟩
          | cons event front =>
              cases parts
              obtain ⟨-, plain⟩ := List.forall_mem_cons.1 plain
              obtain ⟨behind, plays, faces⟩ := ih shows rfl plain given onward
              exact ⟨behind, .element next plays, faces⟩
      | operator shows =>
          cases front with
          | nil =>
              cases parts
              exact ⟨walk, .refl, trivial⟩
          | cons event front =>
              cases parts
              cases plain _ List.mem_cons_self

section

variable {template : Template} {position : Nat}

theorem trace_to_end {unrolled : List Opcode} (flat : Expands resolver chain steps)
    (here : template.ops.toList.drop position = steps)
    (unrolls : Unrolls resolver chain supply unrolled left) :
    trace resolver ⟨template, position, []⟩ supply = .ok (unrolled, left) := by
  have whole : template.ops.toList.drop position = steps ++ [] := here.trans (List.append_nil _).symm
  have room : HasRoom position steps.length [] := nofun
  rw [trace_unrolls flat unrolls _ _ _ whole room, trace_done (next_at_end (drop_append whole))]
  simp [Except.map, Opcode.after]

theorem playsTo_of_asks (flat : Expands resolver chain steps)
    (here : template.ops.toList.drop position = steps) (asks : chain.Asks resolver (front ++ back))
    (plain : ∀ event ∈ front, event.IsPlain) :
    ∃ behind, PlaysTo resolver ⟨template, position, []⟩ front behind ∧ behind.Faces back := by
  obtain ⟨unrolled, shows, unrolls⟩ := asks
  exact playsTo_of_trace (trace_to_end flat here (unrolls (Stream'.const 0))) shows rfl plain

theorem plays_iff_asks (flat : Expands resolver chain steps)
    (here : template.ops.toList.drop position = steps) (operatorless : ∀ code, .operator code ∉ steps) :
    Plays resolver ⟨template, position, []⟩ events ↔
      chain.Asks resolver events ∧ ∀ event ∈ events, event.IsPlain := by
  constructor
  · intro plays
    obtain ⟨unrolled, shows, played⟩ := plays.shows
    have unrolls (supply : Stream' UInt64) :
        Unrolls resolver chain (Event.counts events ++ₛ supply) unrolled supply := by
      obtain ⟨unrolled', left, unrolls⟩ := flat.unrolls (Event.counts events ++ₛ supply)
      cases (played supply).symm.trans (trace_to_end flat here unrolls)
      exact unrolls
    have asks : chain.Asks resolver events := ⟨unrolled, shows, unrolls⟩
    refine ⟨asks, fun event mem => ?_⟩
    cases event with
    | element => trivial
    | operator walk code => exact absurd (asks.mem flat mem) (operatorless code)
    | count => exact plays.isCount_of_mem mem
  · rintro ⟨asks, plain⟩
    rw [← List.append_nil events] at asks ⊢
    obtain ⟨behind, plays, ended⟩ := playsTo_of_asks flat here asks plain
    exact plays.plays (.done ended)

end

end Walk

end Bufr
