import Bufr.Proofs.Coding.Recoding
import Bufr.Proofs.Layout.Series
import Bufr.Proofs.Template.Concatenation

/-!
Reference values that the data define. Each one stands for the next field of its element only; behind
that field, and for all other elements, the table has the say again.
-/

namespace Bufr

open Situation (Log)
open Modifiers (bare wordOf without)

/-- The reference value of an element behind others: the last one that is defined for it, unless it
has come before. -/
def ElementInfo.referenceBehind (info : ElementInfo) (defined : List (Descriptor × Int))
    (before : List Descriptor) : Int :=
  if info.code ∈ before then info.referenceWord
  else (defined.reverse.lookup info.code).getD info.referenceWord

inductive Coded (resolver : Resolver) (spells : Field → Value → Bits → Prop)
    (defined : List (Descriptor × Int)) :
    List Descriptor → List Event → List Variable → Bits → Prop where
  | nil {before} : Coded resolver spells defined before [] [] []
  | element {before code info v events vars x y} (known : resolver.element code = .ok info)
      (named : v.code = code)
      (first : spells (info.fieldFrom (info.referenceBehind defined before)) v.value x)
      (more : Coded resolver spells defined (code :: before) events vars y) :
      Coded resolver spells defined before (.element code :: events) (v :: vars) (x ++ y)
  | count {before replication code info passes v events vars x y}
      (known : resolver.element code = .ok info) (named : v.code = code)
      (counted : v.count = .ok passes) (first : info.HoldsCount passes x)
      (more : Coded resolver spells defined before events vars y) :
      Coded resolver spells defined before (.count replication code passes :: events) (v :: vars)
        (x ++ y)

def Resolver.Numbers (resolver : Resolver) (code : Descriptor) : Prop :=
  ∃ info, resolver.element code = .ok info ∧ info.code = code ∧ info.isText = false ∧ info.width ≤ 63

variable {resolver : Resolver} {references defined : List (Descriptor × Int)} {before : List Descriptor}
  {code used : Descriptor} {events : List Event} {actions : List Action} {vars : List Variable} {x : Bits}

theorem Resolver.Numbers.of_known {info : ElementInfo} (numbers : resolver.Numbers code)
    (known : resolver.element code = .ok info) :
    info.code = code ∧ info.isText = false ∧ info.width ≤ 63 := by
  obtain ⟨_, known', numeric⟩ := numbers
  cases known.symm.trans known'
  exact numeric

/-! ## Values still to be used -/

theorem lookup_without (references : List (Descriptor × Int)) (used code : Descriptor) :
    (without used references).lookup code = if code = used then none else references.lookup code := by
  unfold Modifiers.without
  induction references with
  | nil => simp
  | cons entry references ih =>
      obtain ⟨key, value⟩ := entry
      by_cases same : key = used
      · subst same
        rw [List.filter_cons_of_neg (by simp), ih, List.lookup_cons]
        by_cases here : code = key
        · simp [here]
        · simp [here, beq_eq_false_iff_ne.2 here]
      · rw [List.filter_cons_of_pos (by simpa using same), List.lookup_cons, List.lookup_cons, ih]
        split <;> simp_all

def definedLast (references defined : List (Descriptor × Int)) : List (Descriptor × Int) :=
  defined.foldl (fun references (code, value) => (code, value) :: without code references) references

theorem lookup_definedLast (references defined : List (Descriptor × Int)) (code : Descriptor) :
    (definedLast references defined).lookup code =
      (defined.reverse.lookup code).or (references.lookup code) := by
  induction defined generalizing references with
  | nil => rfl
  | cons entry defined ih =>
      obtain ⟨key, value⟩ := entry
      have first : (((key, value) :: without key references).lookup code) =
          ([(key, value)].lookup code).or (references.lookup code) := by
        rw [List.lookup_cons, List.lookup_cons, lookup_without]
        split <;> simp_all
      rw [List.reverse_cons, List.lookup_append, Option.or_assoc, ← first]
      exact ih _

def Awaits (references defined : List (Descriptor × Int)) (before : List Descriptor) : Prop :=
  ∀ code, references.lookup code = if code ∈ before then none else defined.reverse.lookup code

theorem awaits_definedLast (defined : List (Descriptor × Int)) :
    Awaits (definedLast [] defined) defined [] := by
  intro code
  rw [lookup_definedLast]
  simp

theorem Awaits.without {info : ElementInfo} (awaits : Awaits references defined before)
    (named : info.code = used) : Awaits (without info.code references) defined (used :: before) := by
  intro code
  subst named
  rw [lookup_without, awaits]
  simp only [List.mem_cons]
  split <;> simp_all

theorem Awaits.wordOf {info : ElementInfo} (awaits : Awaits references defined before)
    (words : ∀ entry ∈ defined, (Int64.ofInt entry.2).toInt = entry.2) :
    wordOf references info = info.referenceBehind defined before := by
  unfold Modifiers.wordOf ElementInfo.referenceBehind
  rw [awaits]
  split
  · rfl
  · cases found : defined.reverse.lookup info.code with
    | none => rfl
    | some value =>
        obtain ⟨_, _, parts, _⟩ := List.lookup_eq_some_iff.1 found
        have mem : (info.code, value) ∈ defined := by
          rw [← List.mem_reverse, parts]
          exact List.mem_append_right _ List.mem_cons_self
        exact words _ mem

/-! ## What is spelled -/

structure Action.IsSpelling (spells : Field → Value → Bits → Prop) (spellsAction : Action → Bits → Prop) :
    Prop where
  value : ∀ {code field data x}, spellsAction ⟨.value code field 0, data⟩ x → spells field data.1 x
  count : ∀ {code info passes x}, info.width ≤ 63 → spellsAction ⟨.count code info passes, ()⟩ x →
    info.HoldsCount passes x
  define : ∀ {code width value x}, spellsAction ⟨.define code width, value⟩ x →
    x.length = width ∧ x.signed = value
  other : ∀ {x}, spellsAction ⟨.other, ()⟩ x → x = []

theorem holdsCount_of_reads {info : ElementInfo} {passes : UInt64} (narrow : info.width ≤ 63)
    (read : Task.Reads (.count code info passes) x ()) : info.HoldsCount passes x := by
  obtain ⟨-, sum⟩ := Task.sum_of_count read narrow
  refine ⟨read.2.1, ?_⟩
  rw [ElementInfo.referenceWord]
  omega

theorem isSpelling_reads : Action.IsSpelling (fun field v x => field.Reads x v) Action.Reads where
  value := by
    rintro code field data _ ⟨y, z, rfl, front, read⟩
    rw [List.length_eq_zero_iff.1 front.2.1]
    exact read
  count := holdsCount_of_reads
  define := fun read => ⟨read.2.2.1, read.2.2.2⟩
  other := id

theorem isSpelling_writes : Action.IsSpelling Field.Writes Action.Writes where
  value := by
    rintro code field data _ ⟨y, z, rfl, front, written⟩
    cases front
    exact written
  count := fun _ => holdsCount_of_writes
  define := by
    rintro code width value _ ⟨wide, narrow, fits, rfl⟩
    exact ⟨Bits.length_ofSigned _ wide, Bits.signed_ofSigned narrow fits⟩
  other := id

variable {spells : Field → Value → Bits → Prop} {spellsAction : Action → Bits → Prop}

theorem Series.coded (isSpelling : Action.IsSpelling spells spellsAction)
    (words : ∀ entry ∈ defined, (Int64.ofInt entry.2).toInt = entry.2)
    (series : Series resolver references 0 events actions)
    (numbers : ∀ event ∈ events, resolver.Numbers event.opcode.code)
    (awaits : Awaits references defined before) (spelled : Bits.Spelled spellsAction actions x)
    (codes : List.Forall₂ Action.Codes actions vars) :
    Coded resolver spells defined before events vars x := by
  -- On the series: an element uses its value up, a count leaves the values as they are.
  generalize none : 0 = gap at series
  induction series generalizing before vars x with
  | nil =>
      cases spelled
      cases codes
      exact .nil
  | lost => cases none
  | value known _ _ _ ih =>
      cases none
      obtain ⟨number, others⟩ := List.forall_mem_cons.1 numbers
      obtain ⟨named, -, -⟩ := number.of_known known
      cases spelled with
      | cons first spelled =>
          cases codes with
          | cons same codes =>
              obtain ⟨sameCode, rfl⟩ := same
              have holds := isSpelling.value first
              rw [awaits.wordOf words] at holds
              exact .element known sameCode holds (ih others (awaits.without named) spelled codes rfl)
  | count known _ ih =>
      obtain ⟨number, others⟩ := List.forall_mem_cons.1 numbers
      obtain ⟨-, -, narrow⟩ := number.of_known known
      cases spelled with
      | cons first spelled =>
          cases codes with
          | cons same codes =>
              exact .count known same.1 same.2 (isSpelling.count narrow first)
                (ih others awaits spelled codes none)

theorem Series.isNarrow (series : Series resolver references 0 events actions)
    (numbers : ∀ event ∈ events, resolver.Numbers event.opcode.code) :
    ∀ action ∈ actions, action.task.IsNarrow := by
  generalize none : 0 = gap at series
  induction series with
  | nil => exact nofun
  | lost => cases none
  | value known _ _ _ ih =>
      cases none
      obtain ⟨number, others⟩ := List.forall_mem_cons.1 numbers
      obtain ⟨-, -, narrow⟩ := number.of_known known
      exact List.forall_mem_cons.2 ⟨fun _ => narrow, ih others rfl⟩
  | count known _ ih =>
      obtain ⟨number, others⟩ := List.forall_mem_cons.1 numbers
      obtain ⟨-, -, narrow⟩ := number.of_known known
      exact List.forall_mem_cons.2 ⟨narrow, ih others none⟩

theorem Action.codes_of_leaves (leaves : List.Forall₂ Action.Leaves actions vars)
    (words : ∀ action ∈ actions, action.task.IsWord) : List.Forall₂ Action.Codes actions vars := by
  induction leaves with
  | nil => exact .nil
  | @cons action v actions vars first _ ih =>
      obtain ⟨word, others⟩ := List.forall_mem_cons.1 words
      refine .cons ?_ (ih others)
      obtain ⟨task, data⟩ := action
      cases task with
      | count =>
          cases first
          exact ⟨rfl, count_of_integer word rfl⟩
      | skip | unlisted | value =>
          cases first
          exact ⟨rfl, rfl⟩
      | _ => cases first

/-! ## Definitions in front -/

def Action.define (width : Nat) (entry : Descriptor × Int) : Action :=
  ⟨.define entry.1 width, entry.2⟩

def Action.redefinition (width : Nat) (defined : List (Descriptor × Int)) (actions : List Action) :
    List Action :=
  ⟨.other, ()⟩ :: (defined.map (define width) ++ ⟨.other, ()⟩ :: actions)

def DefinesIn (width : Nat) (entry : Descriptor × Int) (x : Bits) : Prop :=
  x.length = width ∧ x.signed = entry.2

theorem DefinesIn.word {width : Nat} {entry : Descriptor × Int} (narrow : width ≤ 64)
    (defines : DefinesIn width entry x) : (Int64.ofInt entry.2).toInt = entry.2 := by
  obtain ⟨rfl, same⟩ := defines
  have magnitude := Bits.natAbs_signed_le narrow
  have less : Bits.missing (x.length - 1) < 2 ^ (x.length - 1) := Bits.missing_lt (by omega)
  have := Nat.pow_le_pow_right (show 0 < 2 by decide) (show x.length - 1 ≤ 63 by omega)
  rw [same] at magnitude
  exact Int64.toInt_ofInt_of_le (by omega) (by omega)

variable {width : Nat} {subset : Subset}

theorem Action.isNarrow_redefinition (width : Nat) (defined : List (Descriptor × Int))
    (narrow : ∀ action ∈ actions, action.task.IsNarrow) :
    ∀ action ∈ Action.redefinition width defined actions, action.task.IsNarrow := by
  intro action mem
  simp only [redefinition, List.mem_cons, List.mem_append, List.mem_map] at mem
  rcases mem with rfl | ⟨entry, _, rfl⟩ | rfl | mem
  · trivial
  · trivial
  · trivial
  · exact narrow action mem

theorem Action.IsSpelling.redefinition (isSpelling : Action.IsSpelling spells spellsAction)
    (spelled : Bits.Spelled spellsAction (Action.redefinition width defined actions) x) :
    ∃ front back, x = front ++ back ∧ Bits.Spelled (DefinesIn width) defined front ∧
      Bits.Spelled spellsAction actions back := by
  cases spelled with
  | cons first spelled =>
      cases isSpelling.other first
      obtain ⟨front, _, rfl, definitions, behind⟩ := spelled.split
      cases behind with
      | cons last behind =>
          cases isSpelling.other last
          exact ⟨front, _, rfl, definitions.of_map.imp fun _ _ => isSpelling.define, behind⟩

theorem Subset.recordAll_redefinition (leaves : List.Forall₂ Action.Leaves actions vars) :
    Subset.empty.recordAll (Action.redefinition width defined actions) =
      ⟨vars.toArray, defined.toArray⟩ := by
  have recorded (subset : Subset) : subset.recordAll (defined.map (Action.define width)) =
      ⟨subset.vars, subset.references ++ defined.toArray⟩ := by
    induction defined generalizing subset with
    | nil => simp [recordAll]
    | cons entry defined ih =>
        refine (ih _).trans ?_
        simp [record, Action.define]
  have parts : Subset.empty.recordAll (Action.redefinition width defined actions) =
      (Subset.empty.recordAll (defined.map (Action.define width))).recordAll
        (⟨.other, ()⟩ :: actions) := List.foldl_append
  have silent (subset : Subset) : subset.recordAll (⟨.other, ()⟩ :: actions) = subset.recordAll actions :=
    rfl
  rw [parts, recorded, silent, recordAll_of_leaves leaves]
  simp [empty]

theorem suppliesAll_redefinition (references : subset.references.toList = defined)
    (leaves : List.Forall₂ Action.Leaves actions vars)
    (codes : List.Forall₂ Action.Codes actions subset.vars.toList) :
    SuppliesAll resolver subset ⟨0, 0, []⟩ (Action.redefinition width defined actions)
      ⟨subset.size, defined.length, []⟩ := by
  have whole : SuppliesAll resolver subset ⟨0, defined.length, []⟩ (⟨.other, ()⟩ :: actions)
      ⟨subset.size, defined.length, []⟩ :=
    .cons .other ((SuppliesAll.whole_iff leaves).2 ⟨codes, rfl⟩)
  have supplied (front back : List (Descriptor × Int)) (parts : front ++ back = defined) :
      SuppliesAll resolver subset ⟨0, front.length, []⟩
        (back.map (Action.define width) ++ ⟨.other, ()⟩ :: actions)
        ⟨subset.size, defined.length, []⟩ := by
    induction back generalizing front with
    | nil => simpa [← parts] using whole
    | cons entry back ih =>
        have found : subset.references[front.length]? = some entry := by
          rw [← Array.getElem?_toList, references, ← parts]
          simp
        refine .cons (.define found) ?_
        have more := ih (front ++ [entry]) (by rw [← parts, List.append_assoc]; rfl)
        simpa using more
  exact .cons .other (supplied [] defined rfl)

/-! ## Chains -/

def definitionsEnd (cancelled : Bool) : Descriptor := .operator 3 (if cancelled then 0 else 255)

def redefinition (y : UInt8) (ds : Chain) (cancelled : Bool) : Chain :=
  .operator 3 y :: (ds ++ [definitionsEnd cancelled])

def redefinitionTemplate (y : UInt8) (ds : Chain) (cancelled : Bool) (flat : Template) : Template :=
  ⟨#[.operator (.operator 3 y)]⟩ ++
    (⟨(ds.map Opcode.element).toArray⟩ ++ (⟨#[.operator (definitionsEnd cancelled)]⟩ ++ flat))

section

variable {p ds : Chain} {flat : Template} {y : UInt8} {cancelled : Bool}

theorem expand_redefinition (elements : ∀ d ∈ ds, d.kind = .element)
    (expanded : Template.expand resolver p = .ok flat) :
    Template.expand resolver (redefinition y ds cancelled ++ p) =
      .ok (redefinitionTemplate y ds cancelled flat) := by
  have ended : Template.expand resolver (definitionsEnd cancelled :: p) = _ :=
    Template.expand_append (Template.expand_operator rfl) expanded
  have defining := Template.expand_append (Template.expand_of_elements elements) ended
  have whole : Template.expand resolver (.operator 3 y :: (ds ++ definitionsEnd cancelled :: p)) = _ :=
    Template.expand_append (Template.expand_operator rfl) defining
  rw [redefinition, List.cons_append, List.append_assoc]
  exact whole

theorem drop_redefinitionTemplate (y : UInt8) (ds : Chain) (cancelled : Bool) (flat : Template) :
    (redefinitionTemplate y ds cancelled flat).ops.toList.drop 0 =
      .operator (.operator 3 y) :: (ds.map Opcode.element ++
        .operator (definitionsEnd cancelled) :: flat.ops.toList) := by
  simp [redefinitionTemplate]

theorem plays_redefinition (expands : Expands resolver p flat.ops.toList)
    (operatorless : ∀ code, .operator code ∉ flat.ops)
    (plays : (Walk.start (redefinitionTemplate y ds cancelled flat)).Plays resolver events) :
    ∃ walk behind further, p.Asks resolver further ∧ (∀ event ∈ further, event.IsPlain) ∧
      events = .operator walk (.operator 3 y) :: (ds.map Event.element ++
        .operator behind (definitionsEnd cancelled) :: further) := by
  have here := drop_redefinitionTemplate y ds cancelled flat
  have inside := Walk.drop_succ here
  have room : Walk.HasRoom (0 + 1) ds.length [] := nofun
  obtain ⟨_, rfl, defining⟩ := (Walk.plays_operator_iff (Walk.next_at_top here)).1 plays
  obtain ⟨_, rfl, ending⟩ := Walk.plays_elements inside room defining
  have behind := Walk.drop_append inside
  rw [List.length_map] at behind
  obtain ⟨further, rfl, rest⟩ := (Walk.plays_operator_iff (Walk.next_at_top behind)).1 ending
  obtain ⟨asks, plain⟩ := (Walk.plays_iff_asks expands (Walk.drop_succ behind)
    (by simpa using operatorless)).1 rest
  exact ⟨_, _, further, asks, plain, rfl⟩

def standing (cancelled : Bool) (defined : List (Descriptor × Int)) : List (Descriptor × Int) :=
  if cancelled then [] else defined

theorem operator_define (wide : 2 ≤ y) (narrow : y ≤ 64) :
    Operator.ofDescriptor (.operator 3 y) = .ok (.modify (.defineReferences y.toNat)) := by
  have low : 2 ≤ y.toNat := UInt8.le_iff_toNat_le.1 wide
  have high : y.toNat ≤ 64 := UInt8.le_iff_toNat_le.1 narrow
  have outside : BitmapKind.ofClass? (Descriptor.operator 3 y).x = none := rfl
  have found : Operator.ofOperand? (Descriptor.operator 3 y).x.toNat (Descriptor.operator 3 y).y.toNat =
      some (.modify (.defineReferences y.toNat)) := by
    show Operator.ofOperand? 3 y.toNat = _
    rw [Operator.ofOperand?] <;> omega
  simp only [Operator.ofDescriptor, outside, found]

theorem operator_definitionsEnd (cancelled : Bool) :
    Operator.ofDescriptor (definitionsEnd cancelled) =
      .ok (.modify (if cancelled then .cancelReferences else .endReferences)) := by
  cases cancelled <;> rfl

theorem standing_definedLast (cancelled : Bool) (defined : List (Descriptor × Int)) :
    standing cancelled (definedLast [] defined) = definedLast [] (standing cancelled defined) := by
  cases cancelled <;> rfl

namespace Situation

variable {σ σ' : Situation} {walk : Walk}

structure Defines (references : List (Descriptor × Int)) (width : Nat) (σ : Situation) : Prop where
  modifiers : σ.modifiers = { Modifiers.none with references, referenceWidth? := some width }
  bitmap : σ.bitmap = .none

theorem log_define (wide : 2 ≤ y) (narrow : y ≤ 64)
    (log : Log resolver start (.operator walk (.operator 3 y) :: events) actions σ') :
    ∃ rest σ₁, actions = ⟨.other, ()⟩ :: rest ∧ σ₁.Defines [] y.toNat ∧
      Log resolver σ₁ events rest σ' := by
  have taskOk := task_of_step (@Step.modify resolver start walk _ _ (operator_define wide narrow))
  cases log with
  | cons _ first more =>
      cases taskOk.symm.trans first
      refine ⟨_, _, rfl, ?_, more⟩
      exact ⟨rfl, rfl⟩

theorem Defines.log (defines : σ.Defines references width)
    (log : Log resolver σ (ds.map Event.element ++ events) actions σ') :
    ∃ defined rest σ₁, actions = defined.map (Action.define width) ++ rest ∧
      defined.map Prod.fst = ds ∧ σ₁.Defines (definedLast references defined) width ∧
      Log resolver σ₁ events rest σ' := by
  induction ds generalizing σ references actions with
  | nil => exact ⟨[], actions, σ, rfl, rfl, defines, log⟩
  | cons d ds ih =>
      have defining : σ.modifiers.referenceWidth? = some width := by rw [defines.modifiers]
      have taskOk : σ.task resolver (.element d) = .ok (.define d width, σ) :=
        task_of_step (.define defining)
      cases log with
      | cons value first more =>
          cases taskOk.symm.trans first
          have defines : (σ.record (.define d width) value).Defines
              ((d, value) :: without d references) width := by
            refine ⟨?_, defines.bitmap⟩
            rw [record, defines.modifiers]
            rfl
          obtain ⟨defined, rest, σ₁, rfl, rfl, defines, log⟩ := ih defines more
          exact ⟨(d, value) :: defined, rest, σ₁, rfl, rfl, defines, log⟩

theorem Defines.log_end (defines : σ.Defines references width)
    (log : Log resolver σ (.operator walk (definitionsEnd cancelled) :: events) actions σ') :
    ∃ rest σ₁, actions = ⟨.other, ()⟩ :: rest ∧ σ₁.IsBare (standing cancelled references) 0 ∧
      Log resolver σ₁ events rest σ' := by
  have taskOk := task_of_step
    (@Step.modify resolver σ walk _ _ (operator_definitionsEnd cancelled))
  cases log with
  | cons _ first more =>
      cases taskOk.symm.trans first
      refine ⟨_, _, rfl, ?_, more⟩
      refine ⟨?_, defines.bitmap⟩
      show σ.modifiers.apply _ = _
      rw [defines.modifiers]
      cases cancelled <;> rfl

theorem log_redefinition {behind : Walk} (wide : 2 ≤ y) (narrow : y ≤ 64)
    (plain : ∀ event ∈ events, event.IsPlain)
    (log : Log resolver start (.operator walk (.operator 3 y) :: (ds.map Event.element ++
      .operator behind (definitionsEnd cancelled) :: events)) actions σ') :
    ∃ defined rest, actions = Action.redefinition y.toNat defined rest ∧ defined.map Prod.fst = ds ∧
      Series resolver (definedLast [] (standing cancelled defined)) 0 events rest := by
  obtain ⟨_, _, rfl, defines, log⟩ := log_define wide narrow log
  obtain ⟨defined, _, _, rfl, rfl, defines, log⟩ := defines.log log
  obtain ⟨rest, _, rfl, isBare, log⟩ := defines.log_end log
  rw [standing_definedLast] at isBare
  exact ⟨defined, rest, rfl, rfl, (isBare.series log plain).1⟩

end Situation

def Subset.CodedUnder (resolver : Resolver) (spells : Field → Value → Bits → Prop) (width : Nat)
    (cancelled : Bool) (events : List Event) (subset : Subset) (x : Bits) : Prop :=
  ∃ front back, x = front ++ back ∧
    Bits.Spelled (DefinesIn width) subset.references.toList front ∧
    Coded resolver spells (standing cancelled subset.references.toList) [] events
      subset.vars.toList back

theorem Subset.codedUnder (isSpelling : Action.IsSpelling spells spellsAction) (narrow : width ≤ 64)
    (numbers : ∀ event ∈ events, resolver.Numbers event.opcode.code)
    (series : Series resolver (definedLast [] (standing cancelled subset.references.toList)) 0 events
      actions)
    (codes : List.Forall₂ Action.Codes actions subset.vars.toList)
    (spelled : Bits.Spelled spellsAction
      (Action.redefinition width subset.references.toList actions) x) :
    subset.CodedUnder resolver spells width cancelled events x := by
  obtain ⟨front, back, rfl, definitions, behind⟩ := isSpelling.redefinition spelled
  have words : ∀ entry ∈ standing cancelled subset.references.toList,
      (Int64.ofInt entry.2).toInt = entry.2 := by
    intro entry mem
    cases cancelled with
    | true => cases mem
    | false =>
        obtain ⟨_, defines⟩ := definitions.of_mem mem
        exact defines.word narrow
  exact ⟨front, back, rfl, definitions,
    series.coded isSpelling words numbers (awaits_definedLast _) behind codes⟩

theorem Reading.redefinition {template : Template}
    (expands : Expands resolver p flat.ops.toList) (operatorless : ∀ code, .operator code ∉ flat.ops)
    (wide : 2 ≤ y) (narrow : y ≤ 64) (whole : template = redefinitionTemplate y ds cancelled flat)
    (reading : Reading resolver template subset actions x) :
    ∃ events rest, p.Asks resolver events ∧ (∀ event ∈ events, event.IsPlain) ∧
      actions = Action.redefinition y.toNat subset.references.toList rest ∧
      subset.references.toList.map Prod.fst = ds ∧
      Series resolver (definedLast [] (standing cancelled subset.references.toList)) 0 events rest ∧
      List.Forall₂ Action.Codes rest subset.vars.toList := by
  subst whole
  obtain ⟨_, _, _, plays, log, -⟩ := reading.logged
  obtain ⟨_, _, events, asks, plain, rfl⟩ := plays_redefinition expands operatorless plays
  obtain ⟨defined, rest, rfl, named, series⟩ := Situation.log_redefinition wide narrow plain log
  obtain ⟨vars, leaves⟩ := series.leaves
  have words : ∀ action ∈ rest, action.task.IsWord := fun action mem =>
    reading.isWord action (List.mem_cons_of_mem _ (List.mem_append_right _ (List.mem_cons_of_mem _ mem)))
  obtain rfl := reading.recorded.trans (Subset.recordAll_redefinition leaves)
  exact ⟨events, rest, asks, plain, rfl, named, series, Action.codes_of_leaves leaves words⟩

theorem Reading.exists_writing {template : Template}
    (reading : Reading resolver template subset
      (Action.redefinition width subset.references.toList actions) x)
    (series : Series resolver references 0 events actions)
    (numbers : ∀ event ∈ events, resolver.Numbers event.opcode.code)
    (codes : List.Forall₂ Action.Codes actions subset.vars.toList) :
    ∃ y, Writing resolver template subset
      (Action.redefinition width subset.references.toList actions) y := by
  obtain ⟨_, _, _, _, log, -⟩ := reading.logged
  have sound := Situation.isSound_of_log log
  have narrow := Action.isNarrow_redefinition width subset.references.toList (series.isNarrow numbers)
  have writable : ∀ action ∈ Action.redefinition width subset.references.toList actions,
      ∃ y, action.Writes y := by
    intro action mem
    obtain ⟨_, read⟩ := reading.spelled.of_mem mem
    obtain ⟨y, written, -⟩ := Task.writes_of_reads read (sound action mem) (narrow action mem)
    exact ⟨y, written⟩
  obtain ⟨y, written⟩ := Bits.exists_spelled writable
  obtain ⟨_, leaves⟩ := series.leaves
  exact ⟨y, reading.logged, written, _, suppliesAll_redefinition rfl leaves codes⟩

end

/-- Reference values that the data define are listed in their order. Each stands for the next element
it was defined for, if it is the last one for it and they are not cancelled, and for nothing else; so
it does where what was read is written again. -/
theorem defined_references_used_once {p ds : Chain} {flat : Template} {y : UInt8} (cancelled : Bool)
    (expanded : Template.expand resolver p = .ok flat) (operatorless : ∀ code, .operator code ∉ flat.ops)
    (numbers : ∀ code, .element code ∈ flat.ops → resolver.Numbers code)
    (elements : ∀ d ∈ ds, d.kind = .element) (wide : 2 ≤ y) (narrow : y ≤ 64) :
    ∃ template, Template.expand resolver (redefinition y ds cancelled ++ p) = .ok template ∧
      ∀ r subset r', Decoder.readSubset resolver template r = .ok (subset, r') →
        subset.references.toList.map Prod.fst = ds ∧
        ∃ events, p.Asks resolver events ∧
          (∃ x, r.Takes x r' ∧ subset.CodedUnder resolver (fun field v x => field.Reads x v) y.toNat
            cancelled events x) ∧
          ∀ w, ∃ x, Encoder.writeSubset resolver template subset w = .ok (w.push x) ∧
            subset.CodedUnder resolver Field.Writes y.toNat cancelled events x := by
  refine ⟨_, expand_redefinition elements expanded, fun r subset r' read => ?_⟩
  have expands := Expands.of_expand expanded
  obtain ⟨actions, x, reading, taken⟩ := Decoder.readSubset_ok_iff.1 read
  obtain ⟨events, rest, asks, plain, rfl, named, series, codes⟩ :=
    reading.redefinition expands operatorless wide narrow rfl
  have short : y.toNat ≤ 64 := UInt8.le_iff_toNat_le.1 narrow
  have numbers : ∀ event ∈ events, resolver.Numbers event.opcode.code := by
    intro event mem
    have asked := asks.mem expands mem
    cases event with
    | element code | count _ code => exact numbers code (Array.mem_toList_iff.1 asked)
    | operator => cases plain _ mem
  obtain ⟨z, writing⟩ := reading.exists_writing series numbers codes
  refine ⟨named, events, asks, ⟨x, taken, ?_⟩, fun w => ⟨z, ?_, ?_⟩⟩
  · exact Subset.codedUnder isSpelling_reads short numbers series codes reading.spelled
  · exact Encoder.writeSubset_ok_iff.2 ⟨_, z, writing, rfl⟩
  · exact Subset.codedUnder isSpelling_writes short numbers series codes writing.spelled

def dewpointLevels : Chain := [.replication 2 0, .element 31 1, .element 12 101, .element 12 103]

def dewpointTemplate : Template := ⟨#[.replication (.replication 2 0) 2, .element (.element 31 1),
  .element (.element 12 101), .element (.element 12 103)]⟩

def dewpointReferences : Chain := [.element 12 101, .element 12 101, .element 12 103]

def dewpointReport : Subset := ⟨#[.ofValue (.element 31 1) (.integer 2),
  .ofValue (.element 12 101) (.decimal 27315 (-2)), .ofValue (.element 12 103) (.decimal 27015 (-2)),
  .ofValue (.element 12 101) (.decimal 26815 (-2)), .ofValue (.element 12 103) (.decimal 26515 (-2))],
  #[(.element 12 101, -5), (.element 12 101, -100), (.element 12 103, 7)]⟩

def dewpointData : Octets := [128, 88, 100, 0, 112, 38, 177, 118, 152, 6, 139, 246, 121, 48]

theorem defined_references_used_once_dewpointLevels :
    ∃ template r' events,
      Template.expand .station (redefinition 12 dewpointReferences false ++ dewpointLevels) =
        .ok template ∧
      Decoder.readSubset .station template (.ofOctets dewpointData) = .ok (dewpointReport, r') ∧
      dewpointLevels.Asks .station events ∧
      (∃ x, (Bits.Reader.ofOctets dewpointData).Takes x r' ∧
        dewpointReport.CodedUnder .station (fun field v x => field.Reads x v) 12 false events x) ∧
      ∀ w, ∃ x, Encoder.writeSubset .station template dewpointReport w = .ok (w.push x) ∧
        dewpointReport.CodedUnder .station Field.Writes 12 false events x := by
  have flat : Template.expand .station dewpointLevels = .ok dewpointTemplate := by
    decide +kernel
  have elements : ∀ d ∈ dewpointReferences, d.kind = .element := by decide
  have numbers : ∀ code, .element code ∈ dewpointTemplate.ops → Resolver.station.Numbers code := by
    intro code mem
    have one : code = .element 31 1 ∨ code = .element 12 101 ∨ code = .element 12 103 := by
      simpa [dewpointTemplate] using mem
    rcases one with rfl | rfl | rfl <;> exact ⟨_, rfl, rfl, rfl, by decide⟩
  obtain ⟨template, expanded, all⟩ := defined_references_used_once (y := 12) false flat
    (by simp [dewpointTemplate]) numbers elements (by decide) (by decide)
  cases (expand_redefinition elements flat).symm.trans expanded
  have decoded : (Decoder.readSubset .station
      (redefinitionTemplate 12 dewpointReferences false dewpointTemplate)
      (.ofOctets dewpointData)).map (·.1) = .ok dewpointReport := by
    decide +kernel
  obtain ⟨⟨_, r'⟩, read, rfl⟩ := map_eq_ok_iff.1 decoded
  obtain ⟨-, events, asks, coded, rewritten⟩ := all _ _ _ read
  exact ⟨_, r', events, expanded, read, asks, coded, rewritten⟩

end Bufr
