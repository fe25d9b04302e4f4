import Bufr.Proofs.Coding.Isolation

/-!
Elements that no table knows. Behind a local width such an element is read as if a table listed it as
a plain number, as long as neither an associated field nor a run without data is in effect: the first
is in front of listed elements only, and the second counts and skips no others.
-/

namespace Bufr

def Resolver.listing (resolver : Resolver) (info : ElementInfo) : Resolver :=
  { resolver with
    element := fun code => if code = info.code then .ok info else resolver.element code }

def Resolver.Misses (resolver : Resolver) (code : Descriptor) : Prop :=
  ∃ e, resolver.element code = .error e ∧ e.kind = .notFound

/-- A replication whose body can be left out. -/
def Resolver.LeavesOut (resolver : Resolver) (replication : Descriptor) : Prop :=
  ∃ repetition, resolver.repetition replication = .ok repetition ∧
    (repetition.delayed ∨ repetition.count = 0)

structure ElementInfo.IsPlain (info : ElementInfo) : Prop where
  unqualified : info.code.x ≠ 31
  number : info.isText = false
  scale : info.scale = 0
  reference : info.reference = 0

namespace Template

def Lacks (template : Template) (classes : List Nat) : Prop :=
  ∀ code, .operator code ∈ template.ops → code.x.toNat ∉ classes

/-- In front of the element there is a local width wherever it stands, and no body ends there that can
be left out with its last local width. -/
structure Sizes (resolver : Resolver) (template : Template) (code : Descriptor) : Prop where
  preceded : ∀ i, template.ops.toList[i]? = some (.element code) →
    ∃ j op, i = j + 1 ∧ template.ops.toList[j]? = some (.operator op) ∧ op.x = 6 ∧
      1 ≤ op.y.toNat ∧ op.y.toNat ≤ 63
  apart : ∀ i replication span, template.ops.toList[i]? = some (.replication replication span) →
    resolver.LeavesOut replication →
      template.ops.toList[i + resolver.lead replication + span]? ≠ some (.element code)

end Template

/-! ## Where the element stands -/

section

variable {State : Type} {coder : Coder State} {resolver : Resolver} {template : Template}
  {walk walk' rest : Walk} {s s' : State} {code : Descriptor}

namespace Template.Sizes

theorem not_at_start (sizes : template.Sizes resolver code)
    (wellFormed : WellFormed resolver template.ops.toList) {position start stop : Nat}
    (body : HasBody resolver template.ops.toList position start stop) :
    template.ops.toList[start]? ≠ some (.element code) := by
  intro here
  obtain ⟨before, op, rfl, found, other⟩ := wellFormed.not_operator_before body
  obtain ⟨_, width, same, found', -⟩ := sizes.preceded _ here
  cases same
  exact other width (Option.some.inj (found.symm.trans found'))

theorem at_position (sizes : template.Sizes resolver code)
    (wellFormed : WellFormed resolver template.ops.toList) (guided : walk.IsGuided resolver template)
    (next : walk.next = some (.element code, rest)) :
    template.ops.toList[walk.position]? = some (.element code) := by
  obtain ⟨-, position, atRest, here, -⟩ := Walk.isGuided_next guided next
  rcases Walk.position_of_next next with same | ⟨frame, mem, same⟩
  · obtain rfl : position = walk.position := by omega
    exact here
  · obtain rfl : position = frame.start := by omega
    obtain ⟨_, body⟩ := guided.bodies frame mem
    exact absurd here (sizes.not_at_start wellFormed body)

theorem not_of_replicate (sizes : template.Sizes resolver code)
    (wellFormed : WellFormed resolver template.ops.toList) {replication : Descriptor}
    {position span : Nat} {passes : UInt64}
    (found : template.ops.toList[position]? = some (.replication replication span))
    (atStart : walk.position = position + resolver.lead replication)
    (replicated : walk.replicate span passes = .ok walk')
    (leaves : passes = 0 → resolver.LeavesOut replication) :
    template.ops.toList[walk'.position]? ≠ some (.element code) := by
  have body : HasBody resolver template.ops.toList position walk.position (walk.position + span) :=
    ⟨replication, span, found, atStart, rfl⟩
  rcases Walk.position_of_replicate replicated with same | ⟨same, none | empty⟩
  · rw [same]
    exact sizes.not_at_start wellFormed body
  · rw [same, atStart]
    exact sizes.apart position replication span found (leaves none)
  · rw [same, empty]
    exact sizes.not_at_start wellFormed body

theorem of_step (sizes : template.Sizes resolver code)
    (wellFormed : WellFormed resolver template.ops.toList) (guided : walk.IsGuided resolver template)
    (stepped : coder.step resolver walk s = .ok (some walk', s'))
    (here : template.ops.toList[walk'.position]? = some (.element code)) :
    ∃ width, width.x = 6 ∧ 1 ≤ width.y.toNat ∧ width.y.toNat ≤ 63 ∧
      coder.Answers (.operator walk' width) s s' := by
  cases Coder.steps_of_step stepped with
  | element next =>
      obtain ⟨-, position, atRest, found, -⟩ := Walk.isGuided_next guided next
      obtain ⟨_, _, same, found', -⟩ := sizes.preceded _ here
      obtain rfl := Nat.succ.inj (atRest.symm.trans same)
      cases found.symm.trans found'
  | operator next answered =>
      obtain ⟨-, position, atRest, found, -⟩ := Walk.isGuided_next guided next
      obtain ⟨_, _, same, found', isWidth, wide, narrow⟩ := sizes.preceded _ here
      obtain rfl := Nat.succ.inj (atRest.symm.trans same)
      cases found.symm.trans found'
      exact ⟨_, isWidth, wide, narrow, answered⟩
  | @fixed rest _ replication span passes _ next counted replicated =>
      obtain ⟨-, position, atRest, found, -⟩ := Walk.isGuided_next guided next
      have lead : resolver.lead replication = 1 := by rw [Resolver.lead, counted]
      refine absurd here (sizes.not_of_replicate wellFormed found (by omega) replicated fun none => ?_)
      exact ⟨_, counted, Or.inr (UInt8.toUInt64_inj.1 none)⟩
  | @delayed rest behind _ replication span _ _ _ _ _ next counted nextCount _ _ replicated =>
      obtain ⟨-, position, atRest, found, -⟩ := Walk.isGuided_next guided next
      obtain ⟨_, nextCount', -⟩ := Walk.next_count wellFormed guided next counted
      cases nextCount.symm.trans nextCount'
      have lead : resolver.lead replication = 2 := by rw [Resolver.lead, counted]
      have atStart : rest.position + 1 = position + resolver.lead replication := by omega
      refine absurd here (sizes.not_of_replicate wellFormed found atStart replicated fun _ => ?_)
      exact ⟨_, counted, Or.inl rfl⟩

end Template.Sizes

/-! ## Runs alike -/

theorem Coder.run_eq_of_kept {coder' : Coder State} {resolver' : Resolver} {P : Walk → State → Prop}
    (same : ∀ walk s, P walk s → coder'.step resolver' walk s = coder.step resolver walk s)
    (kept : ∀ walk s walk' s', P walk s → coder.step resolver walk s = .ok (some walk', s') →
      P walk' s') (start : P walk s) :
    coder'.run resolver' walk s = coder.run resolver walk s := by
  induction walk, s using run.induct coder resolver with
  | case1 walk s e failed =>
      rw [run, same walk s start, failed, run, failed]
  | case2 walk s s' stepped =>
      rw [run, same walk s start, stepped, run, stepped]
  | case3 walk s walk' s' stepped ih =>
      rw [run, same walk s start, stepped, run, stepped]
      exact ih (kept walk s walk' s' start stepped)

end

/-! ## Quiet modifiers -/

structure Modifiers.IsQuiet (m : Modifiers) : Prop where
  scaleDelta : m.scaleDelta = 0
  references : m.references = []
  undefined : m.referenceWidth? = .none
  unassociated : m.associatedWidth = 0
  precision : m.precision = 0
  gap : m.gap = 0

def Operator.IsOnSize : Operator → Prop
  | modify (.width _) => True
  | modify (.localWidth _) => True
  | modify (.textLength _) => True
  | insertText _ => True
  | _ => False

theorem Operator.isOnSize {code : Descriptor} {op : Operator}
    (plain : code.x.toNat ∉ [22, 23, 24, 25, 32, 35, 36, 37])
    (other : code.x.toNat ∉ [2, 3, 7] ++ [4, 21]) (known : Operator.ofDescriptor code = .ok op) :
    op.IsOnSize := by
  have found := ofOperand?_of_plain plain known
  unfold Operator.ofOperand? at found
  split at found <;> cases found <;> first | trivial | simp_all

theorem Operator.not_isOnSize {op : Operator} (refers : op.Refers) : ¬op.IsOnSize := by
  cases op with
  | bitmap | reuseBitmap => exact id
  | _ => cases refers

theorem Operator.localWidth_of_class {code : Descriptor} (isWidth : code.x = 6) :
    Operator.ofDescriptor code = .ok (.modify (.localWidth code.y.toNat)) := by
  obtain ⟨f, x, y⟩ := code
  cases isWidth
  rfl

namespace Modifiers

variable {m m' : Modifiers} {info : ElementInfo} {code : Descriptor} {width : Nat}

theorem IsQuiet.apply {modification : Modification} (quiet : m.IsQuiet)
    (size : (Operator.modify modification).IsOnSize) : (m.apply modification).IsQuiet := by
  cases modification with
  | width | localWidth | textLength => exact { quiet with }
  | _ => cases size

theorem IsQuiet.withoutLocal (quiet : m.IsQuiet) : { m with localWidth? := .none }.IsQuiet :=
  { quiet with }

theorem IsQuiet.pass (quiet : m.IsQuiet) (code : Descriptor) : m.pass code = (false, m) :=
  if_pos quiet.gap

theorem IsQuiet.field {localWidth? : Option Nat} {field : Field} (quiet : m.IsQuiet)
    (fieldOk : m.field info localWidth? = .ok (field, m')) : m'.IsQuiet := by
  obtain ⟨_, _, _, _, _, _, rfl⟩ := Situation.field_ok_iff.1 fieldOk
  exact { quiet with references := by rw [quiet.references]; rfl }

theorem IsQuiet.adjusted (quiet : m.IsQuiet) (plain : info.IsPlain) :
    ∃ width, m.adjusted info = .ok (width, 0, 0) := by
  unfold Modifiers.adjusted
  rw [plain.number, plain.scale, plain.reference, quiet.scaleDelta, if_pos quiet.precision]
  split
  next text => cases text
  split
  · exact ⟨_, rfl⟩
  · exact ⟨_, rfl⟩

theorem IsQuiet.field_plain (quiet : m.IsQuiet) (plain : info.IsPlain) (narrow : width ≤ 63) :
    m.field info (some width) = .ok (.unlisted info.code width, m) := by
  obtain ⟨_, adjusted⟩ := quiet.adjusted plain
  refine Situation.field_ok_iff.2 ⟨_, _, _, adjusted, ?_, ?_, ?_⟩
  · have fits : (width : Int) ≤ 64 := by omega
    simp [isWidth, plain.number, fits]
  · simp [Field.unlisted, plain.number, quiet.references]
  · rw [quiet.references]
    obtain ⟨_, _, references, _, _, _, _, _, _⟩ := m
    cases quiet.references
    rfl

end Modifiers

namespace Situation

variable {resolver : Resolver} {σ σ' : Situation} {event : Event} {task : Task}

theorem isQuiet_of_step (step : Step resolver σ event task σ')
    (sizes : event.Avoids fun op => ¬op.IsOnSize) (idle : σ.IsIdle) (quiet : σ.modifiers.IsQuiet)
    (data : task.Data) : (σ'.record task data).modifiers.IsQuiet := by
  have settled {σ₁ : Situation} (settles : σ.settle = .ok σ₁) : σ₁ = σ :=
    Except.ok.inj (settles.symm.trans idle.settle)
  cases step with
  | define defining => cases quiet.undefined.symm.trans defining
  | entry | count | keep | reuse | forget => exact quiet
  | unlisted begins =>
      cases settled begins.settled
      exact quiet.withoutLocal
  | skip begins _ gap =>
      cases settled begins.settled
      cases (quiet.withoutLocal.pass _).symm.trans gap
  | value begins _ noGap fieldOk =>
      cases settled begins.settled
      cases (quiet.withoutLocal.pass _).symm.trans noGap
      exact quiet.withoutLocal.field fieldOk
  | quality begins _ noGap fieldOk takes =>
      cases settled begins.settled
      cases (idle.takesElement _).symm.trans takes
  | modify op => exact quiet.apply (not_not.1 (sizes _ op))
  | insert _ settles | cancel _ settles | opens _ settles =>
      cases settled settles
      exact quiet
  | marker op => exact absurd id (sizes _ op)

end Situation

/-! ## Both lookups -/

namespace Decoder

variable {resolver : Resolver} {template : Template} {info : ElementInfo} {walk walk' : Walk}
  {s s' : Decoder} {code : Descriptor} {width : Nat}

theorem knownElement_plain (s : Decoder) (quiet : s.modifiers.IsQuiet) (idle : s.bitmap.phase = .idle)
    (plain : info.IsPlain) (narrow : width ≤ 63) :
    s.knownElement info.code info (some width) = s.localElement info.code width := by
  have free (code : Descriptor) : s.bitmap.takesElement code = false := by
    simp [Bitmap.takesElement, Bitmap.isSelected, idle]
  have unassociated : s.modifiers.associatedWidthOf info.code = 0 := by
    unfold Modifiers.associatedWidthOf
    rw [quiet.unassociated, ite_self]
  have front : associatedField info.code s = .ok (none, s) := by
    unfold associatedField
    rw [unassociated]
    rfl
  unfold knownElement localElement
  rw [quiet.pass]
  simp only [Bool.false_eq_true, ↓reduceIte, quiet.field_plain plain narrow, ok_bind, front]
  unfold Field.read
  simp only [Field.unlisted, Bool.false_eq_true, ↓reduceIte]
  cases s.reader.number width with
  | error e => rfl
  | ok read =>
      obtain ⟨raw?, reader⟩ := read
      have told := ofRaw_unlisted info.code width raw?
      rw [Field.unlisted] at told
      simp only [ok_bind, told]
      unfold place
      simp only [free, Bool.false_eq_true, ↓reduceIte]
      rfl

theorem element_listing (misses : resolver.Misses info.code) (plain : info.IsPlain)
    (quiet : s.modifiers.IsQuiet) (idle : s.bitmap.phase = .idle)
    (localWidth : s.modifiers.localWidth? = some width) (narrow : width ≤ 63) :
    element (resolver.listing info) info.code s = element resolver info.code s := by
  obtain ⟨e, unknown, notFound⟩ := misses
  have listed : (resolver.listing info).element info.code = .ok info := if_pos rfl
  have noEntry : ¬(info.code = .dataPresent ∧ s.bitmap.isCollecting) := by
    rintro ⟨entry, -⟩
    exact plain.unqualified (entry ▸ rfl)
  have settled : s.settle = .ok s := by
    unfold settle Bitmap.settle
    rw [idle]
    rfl
  unfold element
  rw [quiet.undefined]
  simp only [noEntry, ↓reduceIte, settled, ok_bind, listed, unknown, localWidth, notFound]
  exact knownElement_plain { s with modifiers.localWidth? := none } quiet.withoutLocal idle plain narrow

theorem element_listing_of_ne (other : code ≠ info.code) (s : Decoder) :
    element (resolver.listing info) code s = element resolver code s := by
  have same : (resolver.listing info).element code = resolver.element code := if_neg other
  unfold element
  rw [same]

theorem count_listing_of_ne {replication : Descriptor} (other : code ≠ info.code) (s : Decoder) :
    count (resolver.listing info) replication code s = count resolver replication code s := by
  have same : (resolver.listing info).element code = resolver.element code := if_neg other
  unfold count
  rw [same]

theorem operator_listing (size : ∀ op, Operator.ofDescriptor code = .ok op → op.IsOnSize)
    (s : Decoder) : operator (resolver.listing info) code s = operator resolver code s := by
  unfold operator
  cases known : Operator.ofDescriptor code with
  | error e => rfl
  | ok op =>
      have onSize := size op known
      cases op with
      | marker => cases onSize
      | _ => rfl

theorem delayed_listing (plain : info.IsPlain) {span : Nat} :
    (coder (resolver.listing info)).delayed code span walk s =
      (coder resolver).delayed code span walk s := by
  unfold Coder.delayed
  split
  next element behind next =>
    split
    next isCount =>
      have other : element ≠ info.code := by
        rintro rfl
        unfold Descriptor.isCount at isCount
        simp [plain.unqualified] at isCount
      simp only [coder, count_listing_of_ne other]
    · rfl
  · rfl

structure Awaits (resolver : Resolver) (template : Template) (code : Descriptor) (walk : Walk)
    (s : Decoder) : Prop where
  guided : walk.IsGuided resolver template
  quiet : s.modifiers.IsQuiet
  idle : s.bitmap.phase = .idle
  sized : template.ops.toList[walk.position]? = some (.element code) →
    ∃ width, s.modifiers.localWidth? = some width ∧ width ≤ 63

theorem awaits_start (sizes : template.Sizes resolver code) (reader : Bits.Reader) :
    Awaits resolver template code (.start template) (.start reader) where
  guided := Walk.isGuided_start resolver template
  quiet := ⟨rfl, rfl, rfl, rfl, rfl, rfl⟩
  idle := rfl
  sized here := by
    obtain ⟨_, _, first, -⟩ := sizes.preceded _ here
    cases first

theorem quiet_of_answers {event : Event} (answered : (coder resolver).Answers event s s')
    (onlySizes : event.Avoids fun op => ¬op.IsOnSize) (quiet : s.modifiers.IsQuiet)
    (idle : s.bitmap.phase = .idle) :
    s'.modifiers.IsQuiet ∧ s'.bitmap.phase = .idle := by
  let σ : Situation := ⟨s.modifiers, s.bitmap, s.subset.codes, s.referable⟩
  have codes : σ.codes = s.subset.codes := rfl
  have answered : (coder resolver).Answers event (of s.reader σ s.subset) s' := answered
  obtain ⟨task, σ', data, _, _, taskOk, -, -, rfl⟩ := (answers_iff codes).1 answered
  have step := Situation.step_of_task taskOk
  have unreferring : event.Avoids Operator.Refers := by
    cases event with
    | operator => exact fun op known refers => onlySizes op known (Operator.not_isOnSize refers)
    | _ => trivial
  exact ⟨Situation.isQuiet_of_step step onlySizes idle quiet data,
    (Situation.plain_of_step step unreferring idle data).1⟩

section

variable (wellFormed : WellFormed resolver template.ops.toList)
  (onlySizes : template.Avoids fun op => ¬op.IsOnSize) (sizes : template.Sizes resolver info.code)

include wellFormed onlySizes sizes

theorem awaits_of_step (awaits : Awaits resolver template info.code walk s)
    (stepped : (coder resolver).step resolver walk s = .ok (some walk', s')) :
    Awaits resolver template info.code walk' s' := by
  have kept : s'.modifiers.IsQuiet ∧ s'.bitmap.phase = .idle := by
    cases Coder.steps_of_step stepped with
    | element _ answered | delayed _ _ _ _ answered =>
        exact quiet_of_answers answered trivial awaits.quiet awaits.idle
    | operator next answered =>
        have mem := awaits.guided.template_eq ▸ Walk.mem_ops_of_next next
        exact quiet_of_answers answered (fun op => onlySizes _ op mem) awaits.quiet awaits.idle
    | fixed => exact ⟨awaits.quiet, awaits.idle⟩
  refine ⟨Coder.isGuided_of_step wellFormed awaits.guided stepped, kept.1, kept.2, fun here => ?_⟩
  obtain ⟨width, isWidth, -, narrow, answered⟩ :=
    sizes.of_step wellFormed awaits.guided stepped here
  have applied : operator resolver width s =
      .ok { s with modifiers := s.modifiers.apply (.localWidth width.y.toNat) } := by
    unfold operator
    rw [Operator.localWidth_of_class isWidth]
    rfl
  cases answered.symm.trans applied
  exact ⟨_, rfl, narrow⟩

variable (misses : resolver.Misses info.code) (plain : info.IsPlain)

include misses plain

theorem step_listing (awaits : Awaits resolver template info.code walk s) :
    (coder (resolver.listing info)).step (resolver.listing info) walk s =
      (coder resolver).step resolver walk s := by
  unfold Coder.step
  split
  · rfl
  next code rest next =>
    by_cases same : code = info.code
    · cases same
      obtain ⟨width, localWidth, narrow⟩ :=
        awaits.sized (sizes.at_position wellFormed awaits.guided next)
      simp only [coder, element_listing misses plain awaits.quiet awaits.idle localWidth narrow]
    · simp only [coder, element_listing_of_ne same]
  next code rest next =>
    have mem := awaits.guided.template_eq ▸ Walk.mem_ops_of_next next
    have size (op : Operator) (known : Operator.ofDescriptor code = .ok op) : op.IsOnSize :=
      not_not.1 (onlySizes code op mem known)
    simp only [coder, operator_listing size]
  next code span rest next =>
    have counted : (resolver.listing info).repetition code = resolver.repetition code := rfl
    unfold Coder.replication
    rw [counted]
    simp only [delayed_listing plain]

theorem readSubset_listing (reader : Bits.Reader) :
    readSubset (resolver.listing info) template reader = readSubset resolver template reader := by
  have ran := Coder.run_eq_of_kept
    (fun _ _ => step_listing wellFormed onlySizes sizes misses plain)
    (fun _ _ _ _ => awaits_of_step wellFormed onlySizes sizes) (awaits_start sizes reader)
  unfold readSubset
  rw [ran]

theorem readSubsets_listing (done : List Subset) (count : Nat) (reader : Bits.Reader) :
    readSubsets (resolver.listing info) template done count reader =
      readSubsets resolver template done count reader := by
  induction count generalizing done reader with
  | zero => rfl
  | succ count ih =>
      rw [readSubsets, readSubsets, readSubset_listing wellFormed onlySizes sizes misses plain]
      split
      · rfl
      · exact ih ..

end

end Decoder

/-- Behind local widths, an element that no table knows is read as one that is listed as a plain
number, with the same errors, whatever the width in the table. -/
theorem decodeSubsets_listing {resolver : Resolver} {info : ElementInfo} {chain : Chain}
    {template : Template} (expanded : Template.expand resolver chain = .ok template)
    (misses : resolver.Misses info.code) (plain : info.IsPlain) (unshifted : template.Lacks [2, 3, 7])
    (alone : template.Lacks [4, 21]) (unreferring : template.HasNoBitmap)
    (sizes : template.Sizes resolver info.code) (data : Octets) (count : Nat) :
    decodeSubsets (resolver.listing info) template data count =
      decodeSubsets resolver template data count := by
  have onlySizes : template.Avoids fun op => ¬op.IsOnSize := by
    intro code op mem known
    have other : code.x.toNat ∉ [2, 3, 7] ++ [4, 21] := fun listed =>
      (List.mem_append.1 listed).elim (unshifted code mem) (alone code mem)
    exact not_not.2 (Operator.isOnSize (unreferring code mem) other known)
  have wellFormed := (Expands.of_expand expanded).wellFormed
  unfold decodeSubsets
  rw [Decoder.readSubsets_listing wellFormed onlySizes sizes misses plain]

def echo : ElementInfo := ⟨.element 63 1, "ECHO", "Numeric", 0, 0, 3, false⟩

theorem misses_echo : Resolver.station.Misses echo.code :=
  ⟨.unknownElement echo.code, rfl, rfl⟩

theorem isPlain_echo : echo.IsPlain := ⟨by decide, rfl, rfl, rfl⟩

/-- Any number of echoes of eight bits, and a temperature of two bits more. -/
def echoChain : Chain := [.operator 1 130, .replication 2 0, .element 31 1, .operator 6 8, .element 63 1,
  .element 12 101]

def echoTemplate : Template := ⟨#[.operator (.operator 1 130), .replication (.replication 2 0) 2,
  .element (.element 31 1), .operator (.operator 6 8), .element (.element 63 1),
  .element (.element 12 101)]⟩

def echoReport : Subset := ⟨#[.ofValue (.element 31 1) (.integer 2),
  .ofValue (.element 63 1) (.integer 42), .missing (.element 63 1),
  .ofValue (.element 12 101) (.decimal 27315 (-2))], #[]⟩

theorem decodeSubsets_listing_echoes :
    decodeSubsets (Resolver.station.listing echo) echoTemplate [2, 42, 255, 26, 172, 192] 1 =
        .ok [echoReport] ∧
      decodeSubsets (Resolver.station.listing echo) echoTemplate [2, 42, 255, 26, 172, 192] 1 =
        decodeSubsets .station echoTemplate [2, 42, 255, 26, 172, 192] 1 := by
  have lacks (classes : List Nat) (others : 1 ∉ classes ∧ 6 ∉ classes) :
      echoTemplate.Lacks classes := by
    intro code mem
    have here : code = .operator 1 130 ∨ code = .operator 6 8 := by simpa [echoTemplate] using mem
    rcases here with rfl | rfl
    · exact others.1
    · exact others.2
  have sizes : echoTemplate.Sizes .station echo.code := by
    constructor
    · intro i here
      rcases i with _ | _ | _ | _ | _ | _ | i <;> cases here
      exact ⟨3, _, rfl, rfl, by decide⟩
    · intro i replication span here _
      rcases i with _ | _ | _ | _ | _ | _ | i <;> cases here
      decide
  have expanded : Template.expand .station echoChain = .ok echoTemplate := by decide +kernel
  have same := decodeSubsets_listing expanded misses_echo isPlain_echo (lacks _ (by decide))
    (lacks _ (by decide)) (lacks _ (by decide)) sizes [2, 42, 255, 26, 172, 192] 1
  exact ⟨same.trans (by decide +kernel), same⟩

def annotatedTemplate : Template :=
  ⟨#[.operator (.operator 4 8), .operator (.operator 6 8), .element (.element 63 1)]⟩

/-- An associated field is read in front of a listed element only. -/
theorem not_always_as_listed :
    ¬∀ (resolver : Resolver) (info : ElementInfo) (chain : Chain) (template : Template),
      Template.expand resolver chain = .ok template → resolver.Misses info.code → info.IsPlain →
        info.code.f = 0 → info.unit = "Numeric" → template.Lacks [2, 3, 7] → template.HasNoBitmap →
        template.Sizes resolver info.code → ∀ (data : Octets) (count : Nat),
          (decodeSubsets (resolver.listing info) template data count).mapError Error.kind =
            (decodeSubsets resolver template data count).mapError Error.kind := by
  intro claimed
  have expanded : Template.expand .station [.operator 4 8, .operator 6 8, .element 63 1] =
      .ok annotatedTemplate := by decide +kernel
  have lacks (classes : List Nat) (others : 4 ∉ classes ∧ 6 ∉ classes) :
      annotatedTemplate.Lacks classes := by
    intro code mem
    have here : code = .operator 4 8 ∨ code = .operator 6 8 := by simpa [annotatedTemplate] using mem
    rcases here with rfl | rfl
    · exact others.1
    · exact others.2
  have sizes : annotatedTemplate.Sizes .station echo.code := by
    constructor
    · intro i here
      rcases i with _ | _ | _ | i <;> cases here
      exact ⟨1, _, rfl, rfl, by decide⟩
    · intro i replication span here _
      rcases i with _ | _ | _ | i <;> cases here
  have listed : decodeSubsets (Resolver.station.listing echo) annotatedTemplate [3, 42] 1 =
      .ok [⟨#[{ Variable.ofValue (.element 63 1) (.integer 42) with associated := some 3 }], #[]⟩] := by
    decide +kernel
  have unlisted : decodeSubsets .station annotatedTemplate [3, 42] 1 =
      .ok [⟨#[.ofValue (.element 63 1) (.integer 3)], #[]⟩] := by decide +kernel
  have same := claimed _ echo _ _ expanded misses_echo isPlain_echo rfl rfl (lacks _ (by decide))
    (lacks _ (by decide)) sizes [3, 42] 1
  rw [listed, unlisted] at same
  exact absurd (Except.ok.inj same) (by decide)

end Bufr
