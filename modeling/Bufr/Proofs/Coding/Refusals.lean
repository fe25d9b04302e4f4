import Bufr.Proofs.Coding.ReadBack
import Bufr.Proofs.Field.Legibility

/-!
What the decoder makes of whatever the encoder accepts. It stops at the first value that its field
refuses. Where there is none, every text comes back as what its field has room for.
-/

namespace Bufr

open Situation (Log)

namespace Task

def Refuses : (task : Task) → task.Data → Error → Prop
  | value _ field _, data, e => field.Refuses data.1 e
  | attach _ _ field _, data, e => field.Refuses data.1 e
  | _, _, _ => False

def ReturnsBoth (field : Field) (width : Nat) (written read : Value × Option Nat) : Prop :=
  field.Returns written.1 read.1 ∧ read.2 = if width = 0 then none else written.2

def Returns : (task : Task) → (written read : task.Data) → Prop
  | value _ field width, written, read => ReturnsBoth field width written read
  | attach _ _ field width, written, read => ReturnsBoth field width written read
  | task, written, read => task.ReadsBack written read

variable {field : Field} {width : Nat} {task : Task} {x : Bits} {e : Error} {r r' : Bits.Reader}

theorem returnsBoth_of_writes {data : Value × Option Nat} (written : field.WritesBoth width data x)
    (sound : field.IsSound) (accepted : ∀ e, ¬field.Refuses data.1 e) :
    ∃ data', field.ReadsBoth width x data' ∧ ReturnsBoth field width data data' := by
  obtain ⟨y, z, rfl, front, back⟩ := written
  obtain ⟨v, read, returned⟩ := Field.exists_reads accepted back sound.1
  exact ⟨(v, _), ⟨y, z, rfl, readsAssociated_of_writes front, read⟩, returned, rfl⟩

theorem exists_reads {data : task.Data} (written : task.Writes data x) (sound : task.IsSound)
    (accepted : ∀ e, ¬task.Refuses data e) :
    ∃ data', task.Reads x data' ∧ task.Returns data data' := by
  cases task with
  | value code field width => exact returnsBoth_of_writes written sound accepted
  | attach target code field width => exact returnsBoth_of_writes written sound accepted
  | define | entry | skip | count | unlisted | opens | reuses | cancels | other =>
      exact reads_of_writes written sound trivial trivial

theorem record_of_returns {written read : task.Data} (returned : task.Returns written read)
    (σ : Situation) : σ.record task read = σ.record task written := by
  cases task with
  | define => exact returned ▸ rfl
  | entry => exact returned ▸ rfl
  | _ => rfl

theorem refusal_of_writes {data : Value × Option Nat} (written : field.WritesBoth width data x)
    (sound : field.IsSound) (refuses : field.Refuses data.1 e) (taken : r.Takes x r') :
    ∃ y associated r₁, Field.ReadsAssociated width y associated ∧ r.Takes y r₁ ∧
      field.read r₁ = .error e := by
  obtain ⟨y, z, rfl, front, back⟩ := written
  obtain ⟨r₁, takenFront, takenBack⟩ := taken.split
  exact ⟨y, _, r₁, readsAssociated_of_writes front, takenFront,
    Field.read_of_refuses refuses back sound.1 takenBack⟩

end Task

namespace Action

def Refuses (action : Action) (e : Error) : Prop := action.task.Refuses action.data e

def IsAccepted (action : Action) : Prop := ∀ e, ¬action.Refuses e

inductive Returns : Action → Action → Prop where
  | mk {task : Task} {written read : task.Data} (returned : task.Returns written read) :
      Returns ⟨task, written⟩ ⟨task, read⟩

theorem exists_reads {action : Action} {x : Bits} (written : action.Writes x)
    (sound : action.task.IsSound) (accepted : action.IsAccepted) :
    ∃ action', action.Returns action' ∧ action'.Reads x := by
  obtain ⟨data, read, returned⟩ := Task.exists_reads written sound accepted
  exact ⟨⟨_, data⟩, ⟨returned⟩, read⟩

def ComesBack (action action' : Action) : Prop :=
  ∃ y, action.Writes y ∧ action'.Reads y ∧ action.Returns action'

end Action

/-! ## A value that is refused -/

theorem Field.read_inserted (code : Descriptor) (octets : Nat) (r : Bits.Reader) :
    (inserted code octets).read r = readText code octets r := by
  unfold read
  rw [octetCount_inserted]
  rfl

namespace Decoder

variable {resolver : Resolver} {template : Template} {r r' : Bits.Reader} {σ σ₁ σ' : Situation}
  {subset : Subset} {code : Descriptor} {info : ElementInfo} {field : Field} {x : Bits} {e : Error}

theorem element_of_begins (begins : σ.Begins code σ₁) (known : resolver.element code = .ok info) :
    element resolver code (of r σ subset) =
      (of r σ₁.withoutLocal subset).knownElement code info σ₁.modifiers.localWidth? := by
  unfold element
  simp only [begins.undefined, begins.noEntry, ↓reduceIte]
  rw [settle_of, begins.settled]
  simp only [ok_bind, pure, Except.pure, known]
  rfl

theorem knownElement_of_refuses {modifiers modifiers' : Modifiers} {localWidth? : Option Nat}
    {data : Value × Option Nat} (noGap : σ.modifiers.pass code = (false, modifiers))
    (fieldOk : modifiers.field info localWidth? = .ok (field, modifiers'))
    (written : field.WritesBoth (modifiers'.associatedWidthOf code) data x)
    (refuses : field.Refuses data.1 e) (taken : r.Takes x r') :
    (of r σ subset).knownElement code info localWidth? = .error e := by
  have sound := Situation.isSound_field fieldOk
  obtain ⟨y, associated, r₁, read, takenFront, failed⟩ :=
    Task.refusal_of_writes written sound refuses taken
  have front := (@associatedField_ok_iff r { σ with modifiers := modifiers' } subset _ _ _).2
    ⟨y, r₁, read, takenFront, rfl⟩
  unfold knownElement
  simp only [noGap, Bool.false_eq_true, ↓reduceIte]
  exact bind_eq_error_iff.2 (.inr ⟨_, fieldOk, bind_eq_error_iff.2 (.inr ⟨_, front,
    bind_eq_error_iff.2 (.inl failed)⟩)⟩)

theorem insertText_of_refuses {octets : Nat} {data : Value × Option Nat}
    (op : Operator.ofDescriptor code = .ok (.insertText octets)) (settled : σ.settle = .ok σ₁)
    (sound : (Field.inserted code octets).IsSound)
    (written : (Field.inserted code octets).WritesBoth 0 data x)
    (refuses : (Field.inserted code octets).Refuses data.1 e) (taken : r.Takes x r') :
    operator resolver code (of r σ subset) = .error e := by
  have failed := Field.read_of_refuses refuses (Field.writesBoth_zero_iff.1 written) sound.1 taken
  rw [Field.read_inserted] at failed
  unfold operator
  rw [op, ok_bind]
  simp only
  rw [settle_of, settled]
  exact bind_eq_error_iff.2 (.inr ⟨_, rfl, bind_eq_error_iff.2 (.inl failed)⟩)

theorem marker_of_refuses (codes : σ.codes = subset.codes) {kind : BitmapKind} {target : Nat}
    {targetCode : Descriptor} {modifiers : Modifiers} {data : Value × Option Nat}
    (op : Operator.ofDescriptor code = .ok (.marker kind)) (settled : σ.settle = .ok σ₁)
    (sameKind : σ₁.bitmap.kind? = some kind) (found : σ₁.nextTarget = .ok (target, targetCode, σ'))
    (fieldOk : σ'.modifiers.markerField resolver kind targetCode = .ok (field, modifiers))
    (written : field.WritesBoth 0 data x) (refuses : field.Refuses data.1 e)
    (taken : r.Takes x r') : operator resolver code (of r σ subset) = .error e := by
  have sound := Situation.isSound_markerField fieldOk
  have failed := Field.read_of_refuses refuses (Field.writesBoth_zero_iff.1 written) sound.1 taken
  obtain ⟨bitmap, bitmapOk, known, rfl⟩ := Situation.nextTarget_ok_iff.1 found
  have targetOk : (of r σ₁ subset).targetCode target = .ok targetCode := by
    obtain ⟨_, _, rfl⟩ := Situation.settle_ok_iff.1 settled
    rw [codes, Subset.codes, Array.getElem?_map] at known
    obtain ⟨v, here, rfl⟩ := Option.map_eq_some_iff.1 known
    simp only [targetCode, here]
  unfold operator
  rw [op, ok_bind]
  simp only
  rw [settle_of, settled]
  show (of r σ₁ subset).marker resolver code kind = .error e
  rw [marker, if_neg (not_not.2 sameKind)]
  exact bind_eq_error_iff.2 (.inr ⟨_, bitmapOk, bind_eq_error_iff.2 (.inr ⟨_, targetOk,
    bind_eq_error_iff.2 (.inr ⟨_, fieldOk, bind_eq_error_iff.2 (.inl failed)⟩)⟩)⟩)

theorem fails_of_refuses (codes : σ.codes = subset.codes) {event : Event} {task : Task}
    {data : task.Data} (taskOk : σ.task resolver event = .ok (task, σ'))
    (written : task.Writes data x) (refuses : task.Refuses data e) (taken : r.Takes x r') :
    (coder resolver).Fails e event (of r σ subset) := by
  have step := Situation.step_of_task taskOk
  have sound := Situation.isSound_of_step step
  cases step with
  | value begins known noGap fieldOk =>
      exact (element_of_begins begins known).trans
        (knownElement_of_refuses noGap fieldOk written refuses taken)
  | quality begins known noGap fieldOk =>
      exact (element_of_begins begins known).trans
        (knownElement_of_refuses noGap fieldOk written refuses taken)
  | insert op settled => exact insertText_of_refuses op settled sound written refuses taken
  | marker op settled sameKind found fieldOk =>
      exact marker_of_refuses codes op settled sameKind found fieldOk written refuses taken
  | define | entry | unlisted | skip | count | modify | opens | keep | reuse | forget | cancel =>
      cases refuses

theorem failsWithin_of_refuses (codes : σ.codes = subset.codes) {events : List Event}
    {before behind : List Action} {action : Action}
    (log : Log resolver σ events (before ++ action :: behind) σ')
    (written : Bits.Spelled Action.Writes (before ++ action :: behind) x)
    (accepted : ∀ earlier ∈ before, earlier.IsAccepted) (refuses : action.Refuses e)
    (taken : r.Takes x r') : (coder resolver).FailsWithin e events (of r σ subset) := by
  induction before generalizing σ subset r events x with
  | nil =>
      cases log with
      | cons data taskOk log =>
          cases written with
          | cons first more =>
              obtain ⟨r₁, takenFront, _⟩ := taken.split
              exact .here (fails_of_refuses codes taskOk first refuses takenFront)
  | cons earlier before ih =>
      cases log with
      | @cons _ σ₂ _ _ _ task _ data taskOk log =>
          cases written with
          | cons first more =>
              obtain ⟨acceptedFirst, others⟩ := List.forall_mem_cons.1 accepted
              obtain ⟨r₁, takenFront, takenBack⟩ := taken.split
              obtain ⟨data', read, returned⟩ := Task.exists_reads first
                (Situation.isSound_of_step (Situation.step_of_task taskOk)) acceptedFirst
              have answered := (answers_iff codes).2
                ⟨task, σ₂, data', _, r₁, taskOk, read, takenFront, rfl⟩
              -- What was read instead leaves the situation that the rest was written in.
              rw [← Task.record_of_returns returned] at log
              exact .later answered
                (ih (codes_follow codes taskOk data') log more others takenBack)

theorem readSubset_of_refuses {before behind : List Action} {action : Action}
    (writing : Writing resolver template subset (before ++ action :: behind) x)
    (accepted : ∀ earlier ∈ before, earlier.IsAccepted) (refuses : action.Refuses e)
    (taken : r.Takes x r') : readSubset resolver template r = .error e := by
  obtain ⟨events, σ, _, plays, log, _⟩ := writing.logged
  have fails := failsWithin_of_refuses Subset.codes_start log writing.spelled accepted refuses taken
  exact bind_eq_error_iff.2 (.inl (Coder.run_of_failure plays fails))

end Decoder

/-! ## Subsets -/

section

variable {resolver : Resolver} {template : Template} {subset : Subset} {subsets : List Subset}
  {actions : List Action} {logs : List (List Action)} {x : Bits}

theorem Writing.exists_comesBack (writing : Writing resolver template subset actions x)
    (accepted : ∀ action ∈ actions, action.IsAccepted) :
    ∃ read actions', Reading resolver template read actions' x ∧
      List.Forall₂ Action.ComesBack actions actions' := by
  obtain ⟨events, σ, σ', plays, log, settled⟩ := writing.logged
  obtain ⟨actions', back, read⟩ := writing.spelled.exists_related fun action mem y written => by
    obtain ⟨action', returned, read⟩ :=
      Action.exists_reads written (Situation.isSound_of_log log action mem) (accepted action mem)
    exact ⟨action', (⟨y, written, read, returned⟩ : action.ComesBack action'), read⟩
  have same : List.Forall₂ Action.SameRecord actions actions' := back.imp <| by
    rintro _ _ ⟨_, _, _, ⟨returned⟩⟩
    exact ⟨Task.record_of_returns returned⟩
  have log' := Situation.log_of_sameRecord log same
  exact ⟨_, actions', ⟨⟨events, σ, σ', plays, log', settled⟩, read, rfl⟩, back⟩

inductive WritingAll (resolver : Resolver) (template : Template) :
    List Subset → List (List Action) → Bits → Prop where
  | nil : WritingAll resolver template [] [] []
  | cons {subset subsets actions logs x y} (first : Writing resolver template subset actions x)
      (more : WritingAll resolver template subsets logs y) :
      WritingAll resolver template (subset :: subsets) (actions :: logs) (x ++ y)

theorem exists_writingAll
    (written : Bits.Spelled (Encoder.SpelledSubset resolver template) subsets x) :
    ∃ logs, WritingAll resolver template subsets logs x := by
  induction written with
  | nil => exact ⟨[], .nil⟩
  | cons first _ ih =>
      obtain ⟨actions, writing⟩ := first
      obtain ⟨logs, writings⟩ := ih
      exact ⟨actions :: logs, .cons writing writings⟩

theorem WritingAll.of_mem (writings : WritingAll resolver template subsets logs x)
    (mem : actions ∈ logs) : ∃ subset y, Writing resolver template subset actions y := by
  induction writings with
  | nil => cases mem
  | cons writing _ ih =>
      rcases List.mem_cons.1 mem with rfl | mem
      · exact ⟨_, _, writing⟩
      · exact ih mem

theorem WritingAll.exists_action {action : Action}
    (writings : WritingAll resolver template subsets logs x) (mem : action ∈ logs.flatten)
    (accepted : action.IsAccepted) :
    ∃ action' y, action.Writes y ∧ action'.Reads y ∧ action.Returns action' := by
  obtain ⟨actions, inLogs, mem⟩ := List.mem_flatten.1 mem
  obtain ⟨_, _, writing⟩ := writings.of_mem inLogs
  obtain ⟨_, σ, _, _, log, _⟩ := writing.logged
  obtain ⟨y, written⟩ := writing.spelled.of_mem mem
  obtain ⟨action', returned, read⟩ :=
    Action.exists_reads written (Situation.isSound_of_log log action mem) accepted
  exact ⟨action', y, written, read, returned⟩

theorem WritingAll.exists_comesBack (writings : WritingAll resolver template subsets logs x)
    (accepted : ∀ action ∈ logs.flatten, action.IsAccepted) :
    ∃ decoded, decoded.length = subsets.length ∧
      Bits.Spelled (Decoder.SpelledSubset resolver template) decoded x ∧
      List.Forall₂ (fun actions read => ∃ actions' y, Reading resolver template read actions' y ∧
        List.Forall₂ Action.ComesBack actions actions') logs decoded := by
  induction writings with
  | nil => exact ⟨[], rfl, .nil, .nil⟩
  | cons writing _ ih =>
      rw [List.flatten_cons, List.forall_mem_append] at accepted
      obtain ⟨decoded, long, spelled, back⟩ := ih accepted.2
      obtain ⟨read, actions', reading, backFirst⟩ := writing.exists_comesBack accepted.1
      exact ⟨read :: decoded, congrArg Nat.succ long, .cons ⟨actions', reading⟩ spelled,
        .cons ⟨actions', _, reading, backFirst⟩ back⟩

theorem WritingAll.readSubsets_of_refuses (writings : WritingAll resolver template subsets logs x)
    {before behind : List Action} {action : Action} {e : Error}
    (here : logs.flatten = before ++ action :: behind)
    (accepted : ∀ earlier ∈ before, earlier.IsAccepted) (refuses : action.Refuses e)
    {r r' : Bits.Reader} (taken : r.Takes x r') (done : List Subset) :
    Decoder.readSubsets resolver template done subsets.length r = .error e := by
  induction writings generalizing before r done with
  | nil => cases before <;> cases here
  | @cons subset subsets actions logs x y writing more ih =>
      obtain ⟨r₁, takenFront, takenBack⟩ := taken.split
      -- Where the refusal is behind the first subset, that one is read.
      have passes (others : List Action) (wholly : ∀ earlier ∈ actions ++ others, earlier.IsAccepted)
          (rest : logs.flatten = others ++ action :: behind) :
          Decoder.readSubsets resolver template done (subsets.length + 1) r = .error e := by
        rw [List.forall_mem_append] at wholly
        obtain ⟨read, actions', reading, _⟩ := writing.exists_comesBack wholly.1
        rw [Decoder.readSubsets_succ, Decoder.readSubset_ok_iff.2 ⟨actions', x, reading, takenFront⟩]
        exact ih rest wholly.2 takenBack _
      rw [List.flatten_cons] at here
      rcases List.append_eq_append_iff.1 here with ⟨others, rfl, rest⟩ | ⟨others, rfl, rest⟩
      · exact passes others accepted rest
      · cases others with
        | nil => exact passes [] (by simpa using accepted) rest.symm
        | cons first others =>
            cases rest
            rw [List.length_cons, Decoder.readSubsets_succ,
              Decoder.readSubset_of_refuses writing accepted refuses takenFront]
            rfl

theorem WritingAll.decodeSubsets_of_accepted (fit : Subset.fit subsets.length)
    (writings : WritingAll resolver template subsets logs x)
    (accepted : ∀ action ∈ logs.flatten, action.IsAccepted) :
    ∃ decoded, decodeSubsets resolver template (Bits.Writer.empty.push x).finish subsets.length =
        .ok decoded ∧
      List.Forall₂ (fun actions read => ∃ actions' y, Reading resolver template read actions' y ∧
        List.Forall₂ Action.ComesBack actions actions') logs decoded := by
  obtain ⟨filling, octets⟩ := ofOctets_finish_push x
  obtain ⟨decoded, long, spelled, back⟩ := writings.exists_comesBack accepted
  exact ⟨decoded, decodeSubsets_ok_iff.2 ⟨fit, long, x, filling, spelled, octets⟩, back⟩

theorem WritingAll.decodeSubsets_of_refuses (fit : Subset.fit subsets.length)
    (writings : WritingAll resolver template subsets logs x) {before behind : List Action}
    {action : Action} {e : Error} (here : logs.flatten = before ++ action :: behind)
    (accepted : ∀ earlier ∈ before, earlier.IsAccepted) (refuses : action.Refuses e) :
    decodeSubsets resolver template (Bits.Writer.empty.push x).finish subsets.length = .error e := by
  obtain ⟨filling, octets⟩ := ofOctets_finish_push x
  rw [← Bits.Reader.rest_ofOctets] at octets
  obtain ⟨r', taken⟩ := Bits.Reader.exists_takes octets
  unfold decodeSubsets
  rw [if_pos fit]
  exact map_eq_error_iff.2 (writings.readSubsets_of_refuses here accepted refuses taken [])

structure Rereads (resolver : Resolver) (template : Template) (logs : List (List Action))
    (result : Except Error (List Subset)) : Prop where
  each : ∀ action ∈ logs.flatten, action.IsAccepted →
    ∃ action' y, action.Writes y ∧ action'.Reads y ∧ action.Returns action'
  returned : (∀ action ∈ logs.flatten, action.IsAccepted) →
    ∃ decoded, result = .ok decoded ∧
      List.Forall₂ (fun actions read => ∃ actions' y, Reading resolver template read actions' y ∧
        List.Forall₂ Action.Returns actions actions') logs decoded
  refused : ∀ before action behind e, logs.flatten = before ++ action :: behind →
    (∀ earlier ∈ before, earlier.IsAccepted) → action.Refuses e → result = .error e

/-- The decoder reads back whatever the encoder accepts, up to the first value that its field refuses:
a text that is cut within a character, or a number of a scale that no decimal has. -/
theorem decodeSubsets_rereads {data : Octets} (fit : Subset.fit subsets.length)
    (encoded : encodeSubsets resolver template subsets = .ok data) :
    ∃ logs x, WritingAll resolver template subsets logs x ∧
      data = (Bits.Writer.empty.push x).finish ∧
      Rereads resolver template logs (decodeSubsets resolver template data subsets.length) := by
  obtain ⟨x, written, rfl⟩ := encodeSubsets_ok_iff.1 encoded
  obtain ⟨logs, writings⟩ := exists_writingAll written
  refine ⟨logs, x, writings, rfl, ?_, ?_, ?_⟩
  · exact fun action mem accepted => writings.exists_action mem accepted
  · intro accepted
    obtain ⟨decoded, ok, back⟩ := writings.decodeSubsets_of_accepted fit accepted
    refine ⟨decoded, ok, back.imp ?_⟩
    rintro actions read ⟨actions', y, reading, back⟩
    exact ⟨actions', y, reading, back.imp fun _ _ ⟨_, _, _, returned⟩ => returned⟩
  · intro before action behind e here accepted refuses
    exact writings.decodeSubsets_of_refuses fit here accepted refuses

end

/-! ## Names of three octets -/

def namesChain : Chain := [.operator 8 3, .element 1 15]

def namesTemplate : Template := ⟨#[.operator (.operator 8 3), .element (.element 1 15)]⟩

def named (content : String) : Subset := ⟨#[.ofValue (.element 1 15) (.text content)], #[]⟩

theorem decodeSubsets_rereads_names :
    ∃ logs x, WritingAll .station namesTemplate [named "Aé", named "Abcé"] logs x ∧
      [65, 195, 169, 65, 98, 99] = (Bits.Writer.empty.push x).finish ∧
      Rereads .station namesTemplate logs
        (decodeSubsets .station namesTemplate [65, 195, 169, 65, 98, 99] 2) :=
  @decodeSubsets_rereads .station namesTemplate [named "Aé", named "Abcé"] _ (by decide)
    (by decide +kernel)

example : decodeSubsets .station namesTemplate [65, 195, 169, 65, 98, 99] 2 =
    .ok [named "Aé", named "Abc"] := by decide +kernel

/-- The encoder cuts a name after its third octet, which can be the first of two that make up a
character. -/
theorem not_always_legible :
    Template.expand .station namesChain = .ok namesTemplate ∧
      ¬∀ (content : String) (data : Octets),
        encodeSubsets .station namesTemplate [named content] = .ok data →
        ∃ read, decodeSubsets .station namesTemplate data 1 = .ok [named read] ∧
          read.toList <+: content.toList := by
  refine ⟨by decide +kernel, fun always => ?_⟩
  obtain ⟨read, decoded, _⟩ := always "Abé" [65, 98, 195] (by decide +kernel)
  have refused : decodeSubsets .station namesTemplate [65, 98, 195] 1 =
      .error (.invalidText (.element 1 15)) := by decide +kernel
  cases refused.symm.trans decoded

end Bufr
