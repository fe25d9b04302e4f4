import Bufr.Proofs.Coding.Recording
import Bufr.Proofs.Coding.Rounds
import Bufr.Proofs.Nesting
import Bufr.Subset.Lookahead

/-!
Where the entries of a bitmap stand right behind its operator, looking ahead in the template counts
as many entries as the walk plays.
-/

namespace Bufr

open Situation (Log)
open Bufr.Action (upcoming given)

def Operator.Settles : Operator → Prop
  | insertText _ => True
  | bitmap _ => True
  | marker _ => True
  | cancelReferrals => True
  | _ => False

theorem Operator.ne_keep_of_settles {code : Descriptor} {op : Operator}
    (known : ofDescriptor code = .ok op) (settles : op.Settles) : code ≠ .operator 36 0 := by
  rintro rfl
  cases known
  cases settles

/-- Steps of which the first to be played, if any, ends an open bitmap. -/
inductive Ends (resolver : Resolver) : List Opcode → Prop where
  | nil : Ends resolver []
  | element {code rest} (other : code ≠ .dataPresent) : Ends resolver (.element code :: rest)
  | operator {code op rest} (known : Operator.ofDescriptor code = .ok op) (settles : op.Settles) :
      Ends resolver (.operator code :: rest)
  | fixed {code passes first body rest} (counted : resolver.repetition code = .ok ⟨passes, false⟩)
      (inner : Ends resolver [first]) (more : Ends resolver rest) :
      Ends resolver (.replication code (first :: body).length :: (first :: body ++ rest))
  | delayed {code unused count first body rest}
      (counted : resolver.repetition code = .ok ⟨unused, true⟩)
      (inner : Ends resolver [first]) (more : Ends resolver rest) :
      Ends resolver (.replication code (first :: body).length :: .element count ::
        (first :: body ++ rest))

/-- Entries of a bitmap, alone or replicated, with whatever comes behind them. -/
inductive EntryRun (resolver : Resolver) : List Opcode → Prop where
  | ends {steps} (ended : Ends resolver steps) : EntryRun resolver steps
  | entry {rest} (more : EntryRun resolver rest) :
      EntryRun resolver (.element .dataPresent :: rest)
  | keep {rest} (more : EntryRun resolver rest) :
      EntryRun resolver (.operator (.operator 36 0) :: rest)
  | fixed {code passes body rest} (counted : resolver.repetition code = .ok ⟨passes, false⟩)
      (entries : ∀ op ∈ body, op = .element .dataPresent) (more : EntryRun resolver rest) :
      EntryRun resolver (.replication code body.length :: (body ++ rest))
  | delayed {code unused count body rest} (counted : resolver.repetition code = .ok ⟨unused, true⟩)
      (entries : ∀ op ∈ body, op = .element .dataPresent) (more : EntryRun resolver rest) :
      EntryRun resolver (.replication code body.length :: .element count :: (body ++ rest))

variable {resolver : Resolver} {template : Template} {position : Nat} {frames : List Frame}
  {steps body rest : List Opcode} {events : List Event} {actions : List Action}
  {σ σ' : Situation}

/-! ## Looking ahead -/

namespace Lookahead

variable {subset : Subset} {nextVariable counted : Nat}

theorem lt_wrapsAt_of_le {n : Nat} (few : n ≤ subset.size) : n < wrapsAt subset :=
  Nat.lt_of_lt_of_le (Nat.lt_succ_of_le few) (Nat.le_max_right ..)

theorem entries_of_nil (here : template.ops.toList.drop position = []) :
    entries resolver template subset position nextVariable counted = .ok (counted, position) := by
  have outside : ¬position < template.ops.size := by
    have := List.drop_eq_nil_iff.1 here
    rw [Array.length_toList] at this
    omega
  rw [entries, dif_neg outside]

theorem entries_of_drop {op : Opcode} (here : template.ops.toList.drop position = op :: rest) :
    entries resolver template subset position nextVariable counted =
      match op with
      | .element code =>
        if code = .dataPresent then
          entries resolver template subset (position + 1) nextVariable
            ((counted + 1) % wrapsAt subset)
        else .ok (counted, position)
      | .operator code =>
        if code = .operator 36 0 then
          entries resolver template subset (position + 1) nextVariable counted
        else .ok (counted, position)
      | .replication code span =>
        match count resolver subset code nextVariable with
        | .error e => .error e
        | .ok (passes, taken) =>
          if template.ops.size < position + 1 + taken + span then .error (.bodyPastEnd code)
          else
            let body := template.ops.extract (position + 1 + taken) (position + 1 + taken + span)
            if body.all isEntry then
              entries resolver template subset (position + 1 + taken + span) (nextVariable + taken)
                ((counted + passes * span) % wrapsAt subset)
            else .ok (counted, position) := by
  have inside : position < template.ops.size := Walk.lt_of_drop here
  have found : template.ops[position] = op := by
    have := List.drop_eq_getElem_cons (show position < template.ops.toList.length from inside)
    rw [here, Array.getElem_toList] at this
    exact (List.cons.inj this).1.symm
  rw [entries, dif_pos inside]
  simp only [found]
  cases op <;> rfl

theorem extract_of_drop (here : template.ops.toList.drop position = body ++ rest)
    (inside : position ≤ template.ops.size) :
    (template.ops.extract position (position + body.length)).toList = body ∧
      position + body.length ≤ template.ops.size := by
  constructor
  · rw [Array.toList_extract, List.extract_eq_take_drop, here, Nat.add_sub_cancel_left, List.take_left]
  · have := congrArg List.length here
    simp only [List.length_drop, Array.length_toList, List.length_append] at this
    omega

theorem count_of_fixed {code : Descriptor} {passes : UInt8}
    (repeated : resolver.repetition code = .ok ⟨passes, false⟩) :
    count resolver subset code nextVariable = .ok (passes.toNat, 0) := by
  simp only [count, repeated, Bool.false_eq_true, ↓reduceIte]

theorem count_of_delayed {code : Descriptor} {unused : UInt8} {passes : UInt64} {v : Variable}
    (repeated : resolver.repetition code = .ok ⟨unused, true⟩)
    (inside : subset.vars[nextVariable]? = some v) (counts : v.count = .ok passes) :
    count resolver subset code nextVariable = .ok (passes.toNat, 1) := by
  simp only [count, repeated, ↓reduceIte, inside, counts]

theorem entries_of_replication {code : Descriptor} {passes taken : Nat}
    (here : template.ops.toList.drop position = .replication code body.length :: steps)
    (found : count resolver subset code nextVariable = .ok (passes, taken))
    (inside : position + 1 + taken ≤ template.ops.size)
    (behind : template.ops.toList.drop (position + 1 + taken) = body ++ rest) :
    entries resolver template subset position nextVariable counted =
      if body.all isEntry then
        entries resolver template subset (position + 1 + taken + body.length) (nextVariable + taken)
          ((counted + passes * body.length) % wrapsAt subset)
      else .ok (counted, position) := by
  obtain ⟨whole, fits⟩ := extract_of_drop behind inside
  rw [entries_of_drop here]
  simp only [found]
  rw [if_neg (Nat.not_lt.2 fits), ← Array.all_toList, whole]

end Lookahead

/-! ## What the walk plays -/

def Situation.AtEntries (σ : Situation) (available : Nat) (entries : Array Bool) : Prop :=
  σ.bitmap.phase = .collecting available entries ∧ σ.modifiers.referenceWidth? = none

namespace Situation

variable {available : Nat} {entries : Array Bool}

theorem AtEntries.isCollecting (open_ : σ.AtEntries available entries) :
    σ.bitmap.isCollecting = true := by
  rw [Bitmap.isCollecting, open_.1]

theorem log_entry (open_ : σ.AtEntries available entries)
    (log : Log resolver σ (.element .dataPresent :: events) actions σ') :
    ∃ present rest, actions = ⟨.entry, present⟩ :: rest ∧
      Log resolver (σ.record .entry present) events rest σ' ∧
      (σ.record .entry present).AtEntries available (entries.push present) := by
  have taskOk : σ.task resolver (.element .dataPresent) = .ok (.entry, σ) :=
    task_of_step (.entry open_.2 open_.isCollecting)
  cases log with
  | cons data first more =>
      cases taskOk.symm.trans first
      refine ⟨data, _, rfl, more, ?_, open_.2⟩
      simp only [Situation.record, Bitmap.pushEntry, open_.1]

theorem log_entries {count : Nat} (open_ : σ.AtEntries available entries)
    (log : Log resolver σ (List.replicate count (.element .dataPresent) ++ events) actions σ') :
    ∃ (present : List Bool) (rest : List Action) (σ₁ : Situation),
      actions = present.map (fun entry => ⟨.entry, entry⟩) ++ rest ∧ present.length = count ∧
        Log resolver σ₁ events rest σ' ∧ σ₁.AtEntries available (entries ++ present.toArray) ∧
        upcoming actions = present ++ upcoming rest := by
  induction count generalizing σ entries actions with
  | zero => exact ⟨[], actions, σ, rfl, rfl, log, by simpa using open_, rfl⟩
  | succ count ih =>
      obtain ⟨first, actions, rfl, log, open_⟩ := log_entry open_ log
      obtain ⟨present, rest, σ₁, rfl, long, log, open_, same⟩ := ih open_ log
      exact ⟨first :: present, rest, σ₁, rfl, by rw [List.length_cons, long], log, by simpa using open_,
        congrArg (first :: ·) same⟩

end Situation

theorem Walk.plays_elements {codes : List Descriptor}
    (here : template.ops.toList.drop position = codes.map Opcode.element ++ rest)
    (room : HasRoom position codes.length frames)
    (plays : Plays resolver ⟨template, position, frames⟩ events) :
    ∃ back, events = codes.map Event.element ++ back ∧
      Plays resolver ⟨template, position + codes.length, frames⟩ back := by
  induction codes generalizing position events with
  | nil => exact ⟨events, rfl, plays⟩
  | cons code codes ih =>
      obtain ⟨events, rfl, more⟩ :=
        (plays_element_iff (next_of_drop here (hasRoom_one room))).1 plays
      obtain ⟨back, rfl, behind⟩ := ih (drop_succ here) (hasRoom_succ room) more
      refine ⟨back, rfl, ?_⟩
      rwa [List.length_cons, Nat.add_comm codes.length, ← Nat.add_assoc]

theorem Walk.plays_entries (entries : ∀ op ∈ body, op = .element .dataPresent)
    (here : template.ops.toList.drop position = body ++ rest)
    (room : HasRoom position body.length frames)
    (plays : Plays resolver ⟨template, position, frames⟩ events) :
    ∃ back, events = List.replicate body.length (.element .dataPresent) ++ back ∧
      Plays resolver ⟨template, position + body.length, frames⟩ back := by
  have same : body = (List.replicate body.length Descriptor.dataPresent).map Opcode.element := by
    rw [List.map_replicate]
    exact List.eq_replicate_iff.2 ⟨rfl, entries⟩
  rw [same] at here
  simpa using plays_elements here (by rwa [List.length_replicate]) plays

theorem Walk.plays_replicated_entries {passes : UInt64} {again : Walk}
    (entries : ∀ op ∈ body, op = .element .dataPresent)
    (here : template.ops.toList.drop position = body ++ rest)
    (replicated : replicate ⟨template, position, frames⟩ body.length passes = .ok again)
    (plays : again.Plays resolver events) :
    ∃ back, events = List.replicate (passes.toNat * body.length) (.element .dataPresent) ++ back ∧
      Plays resolver ⟨template, position + body.length, frames⟩ back := by
  obtain ⟨fronts, back, rfl, long, same, behind⟩ := plays_replicate replicated
    (P := fun front => front = List.replicate body.length (.element .dataPresent))
    (fun frame events start stop plays => by
      have room : HasRoom position body.length (frame :: frames) :=
        fun _ same => by cases same; omega
      obtain ⟨back, rfl, behind⟩ := plays_entries entries here room plays
      exact ⟨_, back, rfl, rfl, behind⟩) plays
  refine ⟨back, ?_, behind⟩
  congr 1
  have all := List.eq_replicate_iff.2 ⟨long, same⟩
  rw [all, List.flatten_replicate_replicate]
  split
  next empty => simp [empty]
  next => rfl

/-! ## The end of the entries -/

def Event.Settles : Event → Prop
  | .element code => code ≠ .dataPresent
  | .operator _ code => ∃ op, Operator.ofDescriptor code = .ok op ∧ op.Settles
  | .count .. => False

namespace Situation

variable {available : Nat} {entries : Array Bool}

theorem settles_of_event {event : Event} {task : Task} {σ₁ : Situation}
    (open_ : σ.AtEntries available entries) (settles : event.Settles)
    (step : Step resolver σ event task σ₁) : task.Settles ∧ ∃ σ₂, σ.settle = .ok σ₂ := by
  cases step with
  | define defining => cases open_.2.symm.trans defining
  | entry => exact absurd rfl settles
  | unlisted begins | skip begins | value begins | quality begins => exact ⟨trivial, _, begins.settled⟩
  | count => cases settles
  | insert _ settled | opens _ settled | marker _ settled | cancel _ settled => exact ⟨trivial, _, settled⟩
  | modify op | keep op | reuse op | forget op =>
      obtain ⟨_, known, settles⟩ := settles
      cases known.symm.trans op
      cases settles

theorem log_settles {event : Event} (open_ : σ.AtEntries available entries)
    (settles : event.Settles) (log : Log resolver σ (event :: events) actions σ') :
    upcoming actions = [] ∧ entries.size ≤ available := by
  cases log with
  | cons data first more =>
      obtain ⟨settles, _, settled⟩ := settles_of_event open_ settles (step_of_task first)
      exact ⟨Action.upcoming_of_settles settles _, ((settle_collecting open_.1).1 settled).1⟩

end Situation

theorem Walk.plays_first {first : Opcode} {frames : List Frame} (ends : Ends resolver [first])
    (here : template.ops.toList.drop position = first :: rest) (room : HasRoom position 1 frames)
    (plays : Plays resolver ⟨template, position, frames⟩ events) :
    ∃ event more, events = event :: more ∧ event.Settles := by
  generalize single : [first] = steps at ends
  cases ends with
  | nil => cases single
  | element other =>
      cases single
      obtain ⟨more, rfl, _⟩ := (plays_element_iff (next_of_drop here room)).1 plays
      exact ⟨_, more, rfl, other⟩
  | operator known settles =>
      cases single
      obtain ⟨more, rfl, _⟩ := (plays_operator_iff (next_of_drop here room)).1 plays
      exact ⟨_, more, rfl, _, known, settles⟩
  | fixed => cases single
  | delayed => cases single

theorem Walk.plays_body {first : Opcode} {passes : UInt64} {again : Walk} (ends : Ends resolver [first])
    (here : template.ops.toList.drop position = first :: body ++ rest)
    (replicated : replicate ⟨template, position, frames⟩ (first :: body).length passes = .ok again)
    (plays : again.Plays resolver events) :
    (∃ event more, events = event :: more ∧ event.Settles) ∨
      Plays resolver ⟨template, position + (first :: body).length, frames⟩ events := by
  cases replicates_of_replicate replicated with
  | skipped => exact Or.inr plays
  | entered frame start stop =>
      refine Or.inl (plays_first ends here ?_ plays)
      intro _ same
      cases same
      simp only [List.length_cons] at stop
      omega

/-! ## The walk plays what looking ahead counts -/

def Task.IsWord : Task → Prop
  | .count _ _ passes => passes.toNat < 2 ^ 63
  | _ => True

theorem Task.isWord_of_reads {task : Task} {x : Bits} {data : task.Data} (read : task.Reads x data) :
    task.IsWord := by
  cases task with
  | count code info passes =>
      obtain ⟨_, _, sum⟩ := read
      have := (Int64.ofInt (Bits.toNat x + info.reference)).toInt_lt
      simp only [IsWord]
      omega
  | _ => trivial

theorem count_of_integer {v : Variable} {passes : UInt64} (small : passes.toNat < 2 ^ 63)
    (value : v.value = .integer (Int64.ofNat passes.toNat)) : v.count = .ok passes := by
  have whole : (Int64.ofNat passes.toNat).toInt = passes.toNat := Int64.toInt_ofNat_of_lt small
  unfold Variable.count
  rw [value]
  simp only [whole, Int.natCast_nonneg, ↓reduceIte, Int.toNat_natCast, UInt64.ofNat_toNat]

section

variable {subset : Subset} {taken available : Nat} {entries : Array Bool}

theorem log_count {replication code : Descriptor} {passes : UInt64}
    (open_ : σ.AtEntries available entries)
    (log : Log resolver σ (.count replication code passes :: events) actions σ') :
    ∃ info rest σ₁, actions = ⟨.count code info passes, ()⟩ :: rest ∧
      Log resolver σ₁ events rest σ' ∧ σ₁.AtEntries available entries ∧
      upcoming actions = upcoming rest := by
  cases log with
  | cons data first more =>
      obtain ⟨info, _, same⟩ := bind_eq_ok.1 first
      cases same
      exact ⟨info, _, _, rfl, more, open_, rfl⟩

theorem count_of_holds {code : Descriptor} {info : ElementInfo} {passes : UInt64}
    (holds : subset.Holds taken (⟨.count code info passes, ()⟩ :: actions))
    (small : passes.toNat < 2 ^ 63) :
    (∃ v, subset.vars[taken]? = some v ∧ v.count = .ok passes) ∧
      subset.Holds (taken + 1) actions := by
  obtain ⟨⟨v, attributes, here, same⟩, rest⟩ := holds.of_fresh rfl
  refine ⟨⟨v, here, count_of_integer small ?_⟩, rest⟩
  rw [same, Variable.value_attachAll]
  rfl

theorem upcoming_of_ends (ends : Ends resolver steps)
    (here : template.ops.toList.drop position = steps)
    (plays : Walk.Plays resolver ⟨template, position, []⟩ events)
    (open_ : σ.AtEntries available entries) (log : Log resolver σ events actions σ')
    (settled : ∃ σ₁, σ'.settle = .ok σ₁) :
    upcoming actions = [] ∧ entries.size ≤ available := by
  induction ends generalizing position events σ actions with
  | nil =>
      cases (Walk.plays_done_iff (Walk.next_at_end here)).1 plays
      cases log
      obtain ⟨_, settled⟩ := settled
      exact ⟨rfl, ((Situation.settle_collecting open_.1).1 settled).1⟩
  | element other =>
      obtain ⟨_, rfl, _⟩ := (Walk.plays_element_iff (Walk.next_at_top here)).1 plays
      have settles : Event.Settles (.element _) := other
      exact Situation.log_settles open_ settles log
  | operator known settles =>
      obtain ⟨_, rfl, _⟩ := (Walk.plays_operator_iff (Walk.next_at_top here)).1 plays
      have settles : Event.Settles (.operator ⟨template, position + 1, []⟩ _) := ⟨_, known, settles⟩
      exact Situation.log_settles open_ settles log
  | fixed counted inner _ _ ih =>
      obtain ⟨again, replicated, more⟩ :=
        (Walk.plays_fixed_iff (Walk.next_at_top here) counted).1 plays
      have here' := Walk.drop_succ here
      rcases Walk.plays_body inner here' replicated more with ⟨_, _, rfl, settles⟩ | behind
      · exact Situation.log_settles open_ settles log
      · exact ih (Walk.drop_append here') behind open_ log
  | delayed counted inner _ _ ih =>
      obtain ⟨_, _, passes, again, events, nextCount, _, replicated, rfl, more⟩ :=
        (Walk.plays_delayed_iff (Walk.next_at_top here) counted).1 plays
      have afterCount := Walk.drop_succ here
      cases nextCount.symm.trans (Walk.next_at_top afterCount)
      have here' := Walk.drop_succ afterCount
      obtain ⟨info, rest, σ₁, rfl, log, open_, same⟩ := log_count open_ log
      rw [same]
      rcases Walk.plays_body inner here' replicated more with ⟨_, _, rfl, settles⟩ | behind
      · exact Situation.log_settles open_ settles log
      · exact ih (Walk.drop_append here') behind open_ log

theorem isEntry_first {first : Opcode} (ends : Ends resolver [first]) :
    Lookahead.isEntry first = false := by
  generalize single : [first] = steps at ends
  cases ends with
  | nil => cases single
  | element other =>
      cases single
      exact beq_eq_false_iff_ne.2 fun same => other (Opcode.element.inj same)
  | operator => cases single; rfl
  | fixed => cases single
  | delayed => cases single

theorem entries_of_ends (ends : Ends resolver steps)
    (here : template.ops.toList.drop position = steps)
    (plays : Walk.Plays resolver ⟨template, position, []⟩ events)
    (open_ : σ.AtEntries available entries) (log : Log resolver σ events actions σ')
    (holds : subset.Holds taken actions) (words : ∀ action ∈ actions, action.task.IsWord)
    (counted : Nat) :
    Lookahead.entries resolver template subset position taken counted = .ok (counted, position) := by
  cases ends with
  | nil => exact Lookahead.entries_of_nil here
  | element other => rw [Lookahead.entries_of_drop here]; exact if_neg other
  | operator known settles =>
      rw [Lookahead.entries_of_drop here]
      exact if_neg (Operator.ne_keep_of_settles known settles)
  | @fixed code passes first body rest repeated inner =>
      rw [Lookahead.entries_of_replication here (Lookahead.count_of_fixed repeated) (Walk.lt_of_drop here) (Walk.drop_succ here)]
      simp only [List.all_cons, isEntry_first inner, Bool.false_and, Bool.false_eq_true, ↓reduceIte]
  | @delayed code unused count first body rest repeated inner =>
      obtain ⟨_, _, passes, again, events, nextCount, _, _, rfl, _⟩ :=
        (Walk.plays_delayed_iff (Walk.next_at_top here) repeated).1 plays
      have afterCount := Walk.drop_succ here
      cases nextCount.symm.trans (Walk.next_at_top afterCount)
      obtain ⟨info, rest, _, rfl, _⟩ := log_count open_ log
      obtain ⟨⟨v, inside, counts⟩, _⟩ := count_of_holds holds (words _ List.mem_cons_self)
      have found := Lookahead.count_of_delayed repeated inside counts
      rw [Lookahead.entries_of_replication here found (Walk.lt_of_drop afterCount)
        (Walk.drop_succ afterCount)]
      simp only [List.all_cons, isEntry_first inner, Bool.false_and, Bool.false_eq_true, ↓reduceIte]

theorem holds_of_entries {present : List Bool}
    (holds : subset.Holds taken (present.map (fun entry => ⟨.entry, entry⟩) ++ actions)) :
    subset.Holds taken actions := by
  induction present with
  | nil => exact holds
  | cons entry present ih => exact ih (holds.of_silent rfl)

theorem all_isEntry (entries : ∀ op ∈ body, op = .element .dataPresent) :
    body.all Lookahead.isEntry := by
  refine List.all_eq_true.2 fun op mem => ?_
  rw [entries op mem]
  rfl

theorem qualityCodes_append (entries : ∀ op ∈ body, op = .element .dataPresent)
    (found : List Descriptor) :
    Lookahead.qualityCodes found (body ++ rest) = Lookahead.qualityCodes found rest := by
  induction body with
  | nil => rfl
  | cons op body ih =>
      obtain ⟨rfl, others⟩ := List.forall_mem_cons.1 entries
      exact ih others

theorem qualityCodes_count {count : Descriptor} (isCount : count.isCount) (found : List Descriptor) :
    Lookahead.qualityCodes found (.element count :: rest) = Lookahead.qualityCodes found rest := by
  have other : ¬(count.x = 33 ∧ count ∉ found) := by
    rintro ⟨quality, _⟩
    rw [Descriptor.isCount, quality] at isCount
    cases isCount
  rw [Lookahead.qualityCodes, if_neg other]

/-- Looking ahead counts the entries that come, as a word, and no quality value stands among them. -/
def Foreseen (resolver : Resolver) (template : Template) (subset : Subset) (position taken : Nat)
    (steps : List Opcode) (actions : List Action) : Prop :=
  ∃ behind,
    (∀ counted, Lookahead.entries resolver template subset position taken
        (counted % Lookahead.wrapsAt subset) =
      .ok ((counted + (upcoming actions).length) % Lookahead.wrapsAt subset, behind)) ∧
    Lookahead.qualityCodes [] (template.ops.toList.drop behind) = Lookahead.qualityCodes [] steps

theorem Foreseen.of_ends (ends : Ends resolver steps) (here : template.ops.toList.drop position = steps)
    (plays : Walk.Plays resolver ⟨template, position, []⟩ events)
    (open_ : σ.AtEntries available entries) (log : Log resolver σ events actions σ')
    (holds : subset.Holds taken actions) (words : ∀ action ∈ actions, action.task.IsWord)
    (complete : upcoming actions = []) :
    Foreseen resolver template subset position taken steps actions := by
  refine ⟨position, fun counted => ?_, by rw [here]⟩
  rw [complete, List.length_nil, Nat.add_zero]
  exact entries_of_ends ends here plays open_ log holds words _

theorem Foreseen.entry {present : Bool}
    (here : template.ops.toList.drop position = .element .dataPresent :: rest)
    (more : Foreseen resolver template subset (position + 1) taken rest actions) :
    Foreseen resolver template subset position taken (.element .dataPresent :: rest)
      (⟨.entry, present⟩ :: actions) := by
  obtain ⟨behind, counts, codes⟩ := more
  refine ⟨behind, fun counted => ?_, codes⟩
  rw [Lookahead.entries_of_drop here]
  simp only [↓reduceIte, Nat.mod_add_mod, counts, upcoming, List.length_cons, Nat.add_assoc,
    Nat.add_comm 1]

theorem Foreseen.keep (here : template.ops.toList.drop position = .operator (.operator 36 0) :: rest)
    (more : Foreseen resolver template subset (position + 1) taken rest actions) :
    Foreseen resolver template subset position taken (.operator (.operator 36 0) :: rest)
      (⟨.other, ()⟩ :: actions) := by
  obtain ⟨behind, counts, codes⟩ := more
  refine ⟨behind, fun counted => ?_, codes⟩
  rw [Lookahead.entries_of_drop here]
  exact counts counted

theorem Foreseen.replicated {code : Descriptor} {passes read : Nat} {set : List Bool}
    {behindActions : List Action}
    (here : template.ops.toList.drop position = .replication code body.length :: steps)
    (found : Lookahead.count resolver subset code taken = .ok (passes, read))
    (inside : position + 1 + read ≤ template.ops.size)
    (behind : template.ops.toList.drop (position + 1 + read) = body ++ rest)
    (present : ∀ op ∈ body, op = .element .dataPresent) (long : set.length = passes * body.length)
    (same : upcoming actions = set ++ upcoming behindActions)
    (codes : Lookahead.qualityCodes [] steps = Lookahead.qualityCodes [] rest)
    (more : Foreseen resolver template subset (position + 1 + read + body.length) (taken + read) rest
      behindActions) :
    Foreseen resolver template subset position taken (.replication code body.length :: steps)
      actions := by
  obtain ⟨last, counts, sameCodes⟩ := more
  refine ⟨last, fun counted => ?_, sameCodes.trans codes.symm⟩
  rw [Lookahead.entries_of_replication here found inside behind, if_pos (all_isEntry present),
    Nat.mod_add_mod, counts, same, List.length_append, long, Nat.add_assoc]

theorem foreseen_entries (run : EntryRun resolver steps)
    (here : template.ops.toList.drop position = steps)
    (plays : Walk.Plays resolver ⟨template, position, []⟩ events)
    (open_ : σ.AtEntries available entries) (log : Log resolver σ events actions σ')
    (settled : ∃ σ₁, σ'.settle = .ok σ₁) (holds : subset.Holds taken actions)
    (words : ∀ action ∈ actions, action.task.IsWord) :
    entries.size + (upcoming actions).length ≤ available ∧
      Foreseen resolver template subset position taken steps actions := by
  -- On the run; each case is a step of looking ahead and of the walk, with the same variables left.
  induction run generalizing position events σ actions entries taken with
  | ends ended =>
      obtain ⟨complete, enough⟩ := upcoming_of_ends ended here plays open_ log settled
      refine ⟨?_, .of_ends ended here plays open_ log holds words complete⟩
      rwa [complete]
  | entry _ ih =>
      obtain ⟨events, rfl, more⟩ := (Walk.plays_element_iff (Walk.next_at_top here)).1 plays
      obtain ⟨present, actions, rfl, log, open_⟩ := Situation.log_entry open_ log
      obtain ⟨enough, foreseen⟩ := ih (Walk.drop_succ here) more open_ log
        (holds.of_silent rfl) fun action mem => words action (List.mem_cons_of_mem _ mem)
      refine ⟨?_, foreseen.entry here⟩
      simp only [upcoming, List.length_cons, Array.size_push] at enough ⊢
      omega
  | keep _ ih =>
      obtain ⟨events, rfl, more⟩ := (Walk.plays_operator_iff (Walk.next_at_top here)).1 plays
      cases log with
      | cons data first log =>
          cases first
          have kept : { σ with bitmap := σ.bitmap.keep }.AtEntries available entries := open_
          obtain ⟨enough, foreseen⟩ := ih (Walk.drop_succ here) more kept log
            (holds.of_silent rfl) fun action mem => words action (List.mem_cons_of_mem _ mem)
          exact ⟨enough, foreseen.keep here⟩
  | fixed repeated present _ ih =>
      obtain ⟨again, replicated, more⟩ :=
        (Walk.plays_fixed_iff (Walk.next_at_top here) repeated).1 plays
      have here' := Walk.drop_succ here
      obtain ⟨events, rfl, behind⟩ := Walk.plays_replicated_entries present here' replicated more
      obtain ⟨set, actions, σ₁, rfl, long, log, open_, same⟩ := Situation.log_entries open_ log
      obtain ⟨enough, foreseen⟩ := ih (Walk.drop_append here') behind open_ log
        (holds_of_entries holds) fun action mem => words action (List.mem_append_right _ mem)
      refine ⟨?_, foreseen.replicated here (Lookahead.count_of_fixed repeated) (Walk.lt_of_drop here)
        here' present long same (qualityCodes_append present [])⟩
      rw [same, List.length_append]
      simp only [Array.size_append, List.size_toArray] at enough
      omega
  | @delayed code unused count body rest repeated present _ ih =>
      obtain ⟨_, _, passes, again, events, nextCount, isCount, replicated, rfl, more⟩ :=
        (Walk.plays_delayed_iff (Walk.next_at_top here) repeated).1 plays
      have afterCount := Walk.drop_succ here
      cases nextCount.symm.trans (Walk.next_at_top afterCount)
      have here' := Walk.drop_succ afterCount
      obtain ⟨info, actions, _, rfl, log, open_, countSame⟩ := log_count open_ log
      obtain ⟨⟨v, inside, isPasses⟩, holds⟩ := count_of_holds holds (words _ List.mem_cons_self)
      obtain ⟨events, rfl, behind⟩ := Walk.plays_replicated_entries present here' replicated more
      obtain ⟨set, actions, σ₁, rfl, long, log, open_, same⟩ := Situation.log_entries open_ log
      obtain ⟨enough, foreseen⟩ := ih (Walk.drop_append here') behind open_ log
        (holds_of_entries holds) fun action mem =>
          words action (List.mem_cons_of_mem _ (List.mem_append_right _ mem))
      refine ⟨?_, foreseen.replicated here (Lookahead.count_of_delayed repeated inside isPasses)
        (Walk.lt_of_drop afterCount) here' present long (countSame.trans same)
        ((qualityCodes_count isCount []).trans (qualityCodes_append present []))⟩
      rw [countSame, same, List.length_append]
      simp only [Array.size_append, List.size_toArray] at enough
      omega

end

end Bufr
