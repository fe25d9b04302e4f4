import Bufr.Proofs.Coding.WithoutBitmaps
import Bufr.Proofs.Template.Concatenation

/-!
Templates without bitmaps in a row. What the first one leaves behind for the second is its modifiers
and nothing else, since without a bitmap no step asks for earlier variables. Cancelling every operator
takes the modifiers back to those of the start, so that the second template is read as it is on its own.
-/

namespace Bufr

open Situation (Log)

instance : Append Subset :=
  ⟨fun front back => ⟨front.vars ++ back.vars, front.references ++ back.references⟩⟩

namespace Subset

variable {actions : List Action}

theorem append_empty (subset : Subset) : subset ++ empty = subset := by
  show (⟨subset.vars ++ #[], subset.references ++ #[]⟩ : Subset) = subset
  rw [Array.append_empty, Array.append_empty]

theorem record_append {action : Action} (plain : action.task.IsPlain) (front subset : Subset) :
    (front ++ subset).record action = front ++ subset.record action := by
  obtain ⟨task, data⟩ := action
  cases task with
  | define code width =>
      exact congrArg (Subset.mk _) (Array.push_append ..)
  | skip | count | unlisted | value =>
      exact congrArg (fun vars => Subset.mk vars _) (Array.push_append ..)
  | cancels | other => rfl
  | entry | attach | opens | reuses => cases plain

theorem recordAll_append (plain : ∀ action ∈ actions, action.task.IsPlain) (front subset : Subset) :
    (front ++ subset).recordAll actions = front ++ subset.recordAll actions := by
  induction actions generalizing subset with
  | nil => rfl
  | cons action actions ih =>
      obtain ⟨first, others⟩ := List.forall_mem_cons.1 plain
      refine Eq.trans ?_ (ih others (subset.record action))
      exact congrArg (recordAll · actions) (record_append first front subset)

end Subset

namespace Situation

variable {resolver : Resolver} {σ σ₁ σ' τ : Situation} {event : Event} {events : List Event}
  {task : Task} {actions : List Action}

def IsIdle (σ : Situation) : Prop := σ.bitmap.phase = .idle

theorem IsIdle.settle (idle : σ.IsIdle) : σ.settle = .ok σ :=
  (settle_idle (by rw [Bitmap.isCollecting, idle])).2 rfl

theorem IsIdle.takesElement (idle : σ.IsIdle) (code : Descriptor) :
    σ.bitmap.takesElement code = false := by
  simp [Bitmap.takesElement, Bitmap.isSelected, show σ.bitmap.phase = .idle from idle]

theorem IsIdle.begins (idle : τ.IsIdle) {code : Descriptor} (same : τ.modifiers = σ.modifiers)
    (begins : σ.Begins code σ₁) : τ.Begins code τ where
  undefined := same ▸ begins.undefined
  noEntry := by
    rw [Bitmap.isCollecting, show τ.bitmap.phase = .idle from idle]
    exact fun both => Bool.false_ne_true both.2
  settled := idle.settle

theorem Step.transfer (step : Step resolver σ event task σ') (avoids : event.Avoids Operator.Refers)
    (idle : σ.IsIdle) (idle' : τ.IsIdle) (same : τ.modifiers = σ.modifiers) :
    ∃ τ', Step resolver τ event task τ' ∧ τ'.modifiers = σ'.modifiers := by
  have settled {σ₁ : Situation} (settles : σ.settle = .ok σ₁) : σ₁ = σ :=
    Except.ok.inj (settles.symm.trans idle.settle)
  have used : τ.withoutLocal.modifiers = σ.withoutLocal.modifiers := by
    simp only [withoutLocal, same]
  have plain (data : task.Data) := (plain_of_step step avoids idle data).2
  cases step with
  | define defining => exact ⟨τ, .define (same ▸ defining), same⟩
  | unlisted begins unknown notFound localWidth =>
      cases settled begins.settled
      exact ⟨_, .unlisted (idle'.begins same begins) unknown notFound (same ▸ localWidth), used⟩
  | skip begins known gap =>
      cases settled begins.settled
      exact ⟨_, .skip (idle'.begins same begins) known (used ▸ gap), rfl⟩
  | value begins known noGap fieldOk =>
      cases settled begins.settled
      exact ⟨_, .value (idle'.begins same begins) known (used ▸ noGap) (same ▸ fieldOk)
        (idle'.takesElement _), rfl⟩
  | count known => exact ⟨_, .count known, same⟩
  | modify op => exact ⟨_, .modify op, by rw [same]⟩
  | insert op settles =>
      cases settled settles
      exact ⟨_, .insert op idle'.settle, same⟩
  | keep op => exact ⟨_, .keep op, same⟩
  | forget op => exact ⟨_, .forget op, same⟩
  | cancel op settles =>
      cases settled settles
      exact ⟨_, .cancel op idle'.settle, same⟩
  | entry => cases plain true
  | quality | marker => cases plain (.missing, none)
  | opens | reuse => cases plain ()

theorem Log.idle_and_plain (log : Log resolver σ events actions σ')
    (avoids : ∀ event ∈ events, event.Avoids Operator.Refers) (idle : σ.IsIdle) :
    σ'.IsIdle ∧ ∀ action ∈ actions, action.task.IsPlain :=
  log.induction (P := IsIdle) (Q := fun action => action.task.IsPlain) avoids idle
    fun data step avoids idle => plain_of_step step avoids idle data

theorem Log.transfer (log : Log resolver σ events actions σ')
    (avoids : ∀ event ∈ events, event.Avoids Operator.Refers) (idle : σ.IsIdle) (idle' : τ.IsIdle)
    (same : τ.modifiers = σ.modifiers) : ∃ τ', Log resolver τ events actions τ' ∧ τ'.IsIdle := by
  induction log generalizing τ with
  | nil => exact ⟨τ, .nil, idle'⟩
  | @cons σ σ₁ σ' event events task actions data taskOk _ ih =>
      obtain ⟨first, others⟩ := List.forall_mem_cons.1 avoids
      have step := step_of_task taskOk
      obtain ⟨τ₁, step', same'⟩ := step.transfer first idle idle' same
      have next := plain_of_step step first idle data
      have next' := plain_of_step step' first idle' data
      obtain ⟨τ', log, ended⟩ := ih others next.1 next'.1 (by cases task <;> simp [record, same'])
      exact ⟨τ', .cons data (task_of_step step') log, ended⟩

end Situation

/-! ## Cancelling -/

/-- Cancels the operators on width, scale and reference values, associated fields, precision, text
length and runs without data. Only a local width goes on until the next element. -/
def cancels : Chain :=
  [.operator 1 0, .operator 2 0, .operator 3 0, .operator 4 0, .operator 7 0, .operator 8 0,
    .operator 21 0]

def cancelTemplate : Template := ⟨(cancels.map Opcode.operator).toArray⟩

theorem expand_cancels (resolver : Resolver) :
    Template.expand resolver cancels = .ok cancelTemplate := by
  simp [Template.expand, Template.expandLevels, Template.expandLevel, cancels, cancelTemplate,
    Descriptor.kind, Descriptor.operator, Except.map]

theorem hasNoBitmap_cancels : cancelTemplate.HasNoBitmap := by
  have all : ∀ code ∈ cancels, code.x.toNat ∉ [22, 23, 24, 25, 32, 35, 36, 37] := by decide
  intro code mem
  refine all code ?_
  simpa [cancelTemplate] using mem

theorem Template.HasNoBitmap.append {front back : Template} (first : front.HasNoBitmap)
    (second : back.HasNoBitmap) : (front ++ back).HasNoBitmap := by
  intro code mem
  rcases Array.mem_append.1 mem with mem | mem
  · exact first code mem
  · exact second code mem

def Operator.SetsLocalWidth : Operator → Prop
  | modify (.localWidth _) => True
  | _ => False

theorem Operator.not_setsLocalWidth {code : Descriptor} {op : Operator} (other : code.x ≠ 6)
    (known : Operator.ofDescriptor code = .ok op) : ¬op.SetsLocalWidth := by
  intro sets
  unfold Operator.ofDescriptor at known
  split at known
  · split at known
    · cases known
      cases sets
    · split at known <;> cases known
      cases sets
  · split at known
    next found =>
      cases known
      unfold Operator.ofOperand? at found
      split at found <;> cases found <;> first | exact other (UInt8.toNat_inj.1 ‹_›) | cases sets
    · cases known

theorem Modifiers.noLocalWidth_lasts :
    Lasts Operator.SetsLocalWidth fun m => m.localWidth? = .none where
  start := rfl
  apply {m modification} kept unset := by
    cases modification with
    | localWidth => exact absurd trivial kept
    | _ => exact unset
  gap _ unset := unset
  references _ unset := unset
  used _ := rfl

namespace Decoder

variable {resolver : Resolver} {template : Template} {r r' : Bits.Reader} {σ : Situation}
  {subset : Subset}

theorem coder_isBlind (resolver : Resolver) : (coder resolver).IsBlind := fun _ _ _ _ => rfl

theorem run_cancels (s : Decoder) (unset : s.modifiers.localWidth? = none) :
    (coder resolver).run resolver (.start cancelTemplate) s = .ok { s with modifiers := .none } := by
  obtain ⟨reader, ⟨_, _, _, _, _, _, _, _, _⟩, bitmap, subset, referable⟩ := s
  cases unset
  refine Coder.run_eq_ok_iff.2 ⟨_, .operator rfl (.operator rfl (.operator rfl (.operator rfl
    (.operator rfl (.operator rfl (.operator rfl (.done rfl))))))), ?_⟩
  exact .cons rfl (.cons rfl (.cons rfl (.cons rfl (.cons rfl (.cons rfl (.cons rfl .nil))))))

theorem run_ok_iff (codes : σ.codes = subset.codes) {s : Decoder} :
    (coder resolver).run resolver (.start template) (of r σ subset) = .ok s ↔
      ∃ events actions x r' σ', (Walk.start template).Plays resolver events ∧
        Log resolver σ events actions σ' ∧ Bits.Spelled Action.Reads actions x ∧ r.Takes x r' ∧
        s = of r' σ' (subset.recordAll actions) := by
  simp only [Coder.run_eq_ok_iff, answersAll_iff codes]
  constructor
  · rintro ⟨events, plays, actions, x, r', σ', rest⟩
    exact ⟨events, actions, x, r', σ', plays, rest⟩
  · rintro ⟨events, actions, x, r', σ', plays, rest⟩
    exact ⟨events, plays, actions, x, r', σ', rest⟩

theorem readSubset_plain_iff (plain : template.HasNoBitmap) :
    readSubset resolver template r = .ok (subset, r') ↔
      ∃ s, (coder resolver).run resolver (.start template) (.start r) = .ok s ∧
        s.subset = subset ∧ s.reader = r' := by
  have settled {s : Decoder}
      (ran : (coder resolver).run resolver (.start template) (.start r) = .ok s) :
      s.settle = .ok s := by
    obtain ⟨events, actions, x, r', σ', plays, log, _, _, rfl⟩ := (run_ok_iff Subset.codes_start).1 ran
    obtain ⟨idle, _⟩ := log.idle_and_plain (plays.avoids plain.avoids) rfl
    rw [settle_of, idle.settle]
    rfl
  unfold readSubset
  constructor
  · intro read
    obtain ⟨s, ran, read⟩ := bind_eq_ok.1 read
    rw [settled ran] at read
    cases read
    exact ⟨s, ran, rfl, rfl⟩
  · rintro ⟨s, ran, rfl, rfl⟩
    rw [ran, ok_bind, settled ran]
    rfl

theorem run_behind_iff (plain : template.HasNoBitmap) (idle : σ.IsIdle)
    (reset : σ.modifiers = .none) {front : Subset} (codes : σ.codes = front.codes) :
    (∃ s, (coder resolver).run resolver (.start template) (of r σ front) = .ok s ∧
        s.subset = subset ∧ s.reader = r') ↔
      ∃ back, readSubset resolver template r = .ok (back, r') ∧ subset = front ++ back := by
  have started : Situation.start.IsIdle := rfl
  have joined {events : List Event} {actions : List Action} {σ' : Situation}
      (plays : (Walk.start template).Plays resolver events)
      (log : Log resolver σ events actions σ') :
      front.recordAll actions = front ++ Subset.empty.recordAll actions := by
    obtain ⟨_, unreferring⟩ := log.idle_and_plain (plays.avoids plain.avoids) idle
    have recorded := Subset.recordAll_append unreferring front .empty
    rwa [Subset.append_empty] at recorded
  simp only [readSubset_plain_iff plain]
  constructor
  · rintro ⟨_, ran, rfl, rfl⟩
    obtain ⟨events, actions, x, r', σ', plays, log, spelled, taken, rfl⟩ := (run_ok_iff codes).1 ran
    obtain ⟨τ, log', _⟩ := log.transfer (plays.avoids plain.avoids) idle started reset.symm
    have again := (run_ok_iff Subset.codes_start).2
      ⟨events, actions, x, r', τ, plays, log', spelled, taken, rfl⟩
    exact ⟨_, ⟨_, again, rfl, rfl⟩, joined plays log⟩
  · rintro ⟨_, ⟨_, ran, rfl, rfl⟩, rfl⟩
    obtain ⟨events, actions, x, r', σ', plays, log, spelled, taken, rfl⟩ :=
      (run_ok_iff Subset.codes_start).1 ran
    obtain ⟨τ, log', _⟩ := log.transfer (plays.avoids plain.avoids) started idle reset
    have again := (run_ok_iff codes).2
      ⟨events, actions, x, r', τ, plays, log', spelled, taken, rfl⟩
    exact ⟨_, again, joined plays log', rfl⟩

theorem run_cancels_of_run (plain : template.HasNoBitmap)
    (unset : template.Avoids Operator.SetsLocalWidth) {s : Decoder}
    (ran : (coder resolver).run resolver (.start template) (.start r) = .ok s) :
    ∃ σ : Situation, σ.IsIdle ∧ σ.modifiers = .none ∧ σ.codes = s.subset.codes ∧
      (coder resolver).run resolver (.start cancelTemplate) s = .ok (of s.reader σ s.subset) := by
  obtain ⟨events, actions, x, r', σ, plays, log, _, _, rfl⟩ := (run_ok_iff Subset.codes_start).1 ran
  obtain ⟨idle, _⟩ := log.idle_and_plain (plays.avoids plain.avoids) rfl
  obtain ⟨noWidth, _⟩ := log.induction (P := fun σ => σ.modifiers.localWidth? = none)
    (Q := fun _ => True) (plays.avoids unset) rfl fun data step avoids holds =>
      ⟨(Situation.under_of_step Modifiers.noLocalWidth_lasts step avoids holds data).1, trivial⟩
  have codes : σ.codes = _ := codes_recordAll log Subset.codes_start
  exact ⟨{ σ with modifiers := .none }, idle, rfl, codes, run_cancels _ noWidth⟩

end Decoder

/-- Behind a template whose operators are all cancelled another one is read as it is on its own, from
the bit on where the first one ends. -/
theorem readSubset_cancelled {resolver : Resolver} {p q : Chain} {tp tq : Template}
    (expandedFirst : Template.expand resolver p = .ok tp)
    (expandedSecond : Template.expand resolver q = .ok tq) (plainFirst : tp.HasNoBitmap)
    (plainSecond : tq.HasNoBitmap) (unset : ∀ code, .operator code ∈ tp.ops → code.x ≠ 6) :
    ∃ template, Template.expand resolver (p ++ cancels ++ q) = .ok template ∧
      ∀ r r' subset, Decoder.readSubset resolver template r = .ok (subset, r') ↔
        ∃ first middle second, Decoder.readSubset resolver tp r = .ok (first, middle) ∧
          Decoder.readSubset resolver tq middle = .ok (second, r') ∧ subset = first ++ second := by
  have cancelled := Template.expand_append expandedFirst (expand_cancels resolver)
  refine ⟨_, Template.expand_append cancelled expandedSecond, fun r r' subset => ?_⟩
  have blind := Decoder.coder_isBlind resolver
  have plain := (plainFirst.append hasNoBitmap_cancels).append plainSecond
  have noLocalWidth : tp.Avoids Operator.SetsLocalWidth :=
    fun code op mem known => Operator.not_setsLocalWidth (unset code mem) known
  rw [Decoder.readSubset_plain_iff plain,
    Coder.run_append blind (Expands.of_expand cancelled).wellFormed,
    Coder.run_append blind (Expands.of_expand expandedFirst).wellFormed]
  constructor
  · rintro ⟨s, ran, rfl, rfl⟩
    obtain ⟨s₂, ran, ranSecond⟩ := bind_eq_ok.1 ran
    obtain ⟨s₁, ranFirst, ranCancels⟩ := bind_eq_ok.1 ran
    -- Behind the cancellations nothing but the variables is left of the first template.
    obtain ⟨σ, idle, reset, codes, done⟩ :=
      Decoder.run_cancels_of_run plainFirst noLocalWidth ranFirst
    cases ranCancels.symm.trans done
    obtain ⟨second, read, joined⟩ :=
      (Decoder.run_behind_iff plainSecond idle reset codes).1 ⟨s, ranSecond, rfl, rfl⟩
    exact ⟨s₁.subset, s₁.reader, second,
      (Decoder.readSubset_plain_iff plainFirst).2 ⟨s₁, ranFirst, rfl, rfl⟩, read, joined⟩
  · rintro ⟨first, middle, second, readFirst, readSecond, rfl⟩
    obtain ⟨s₁, ranFirst, rfl, rfl⟩ := (Decoder.readSubset_plain_iff plainFirst).1 readFirst
    obtain ⟨σ, idle, reset, codes, done⟩ :=
      Decoder.run_cancels_of_run plainFirst noLocalWidth ranFirst
    obtain ⟨s, ranSecond, joined, ended⟩ :=
      (Decoder.run_behind_iff plainSecond idle reset codes).2 ⟨second, readSecond, rfl⟩
    refine ⟨s, ?_, joined, ended⟩
    rw [ranFirst, ok_bind, done, ok_bind, ranSecond]

/-- Temperatures twice over with associated fields, then a reference value in a run that does not end,
and a run without data that has not begun. -/
def unfinished : Chain :=
  [.operator 4 3, .replication 2 2, .element 12 101, .element 12 103, .operator 3 10, .element 12 103,
    .operator 21 2]

def unfinishedTemplate : Template := ⟨#[.operator (.operator 4 3), .replication (.replication 2 2) 2,
  .element (.element 12 101), .element (.element 12 103), .operator (.operator 3 10),
  .element (.element 12 103), .operator (.operator 21 2)]⟩

theorem mem_unfinished {code : Descriptor} (mem : .operator code ∈ unfinishedTemplate.ops) :
    code = .operator 4 3 ∨ code = .operator 3 10 ∨ code = .operator 21 2 := by
  simpa [unfinishedTemplate] using mem

theorem readSubset_cancelled_unfinished :
    ∃ template, Template.expand .station (unfinished ++ cancels ++ [.element 12 103]) = .ok template ∧
      ∀ r r' subset, Decoder.readSubset .station template r = .ok (subset, r') ↔
        ∃ first middle second, Decoder.readSubset .station unfinishedTemplate r = .ok (first, middle) ∧
          Decoder.readSubset .station ⟨#[.element (.element 12 103)]⟩ middle = .ok (second, r') ∧
          subset = first ++ second := by
  refine readSubset_cancelled (by decide +kernel) (by decide +kernel) ?_ ?_ ?_
  · intro code mem
    rcases mem_unfinished mem with rfl | rfl | rfl <;> decide
  · intro code mem
    simp at mem
  · intro code mem
    rcases mem_unfinished mem with rfl | rfl | rfl <;> decide

end Bufr
