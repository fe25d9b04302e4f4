import Bufr.Proofs.Bitmap
import Bufr.Proofs.Coding.Task
import Bufr.Proofs.Run

/-!
What decides the task at an event: the operators in effect, the bitmap and the variables so far.
Data change it in two ways only, by the reference values they define and by the entries of bitmaps,
so coders that share these are in the same situation all along.
-/

namespace Bufr

structure Situation where
  modifiers : Modifiers
  bitmap : Bitmap
  codes : Array Descriptor
  referable : Array Nat
deriving DecidableEq

namespace Situation

def start : Situation := ⟨.none, .none, #[], #[]⟩

def emit (σ : Situation) (code : Descriptor) : Situation :=
  { σ with
    codes := σ.codes.push code
    referable := if code.isReferable then σ.referable.push σ.codes.size else σ.referable }

def settle (σ : Situation) : Except Error Situation := do
  return { σ with bitmap := ← σ.bitmap.settle σ.referable }

def nextTarget (σ : Situation) : Except Error (Nat × Descriptor × Situation) := do
  let (target, bitmap) ← σ.bitmap.nextTarget
  match σ.codes[target]? with
  | some code => return (target, code, { σ with bitmap })
  | none => .error (.danglingReference target)

theorem settle_ok_iff {σ σ' : Situation} :
    σ.settle = .ok σ' ↔
      ∃ bitmap, σ.bitmap.settle σ.referable = .ok bitmap ∧ σ' = { σ with bitmap } := by
  rw [settle, bind_eq_ok]
  exact exists_congr fun _ => and_congr_right fun _ => pure_eq_ok.trans eq_comm

theorem nextTarget_ok_iff {σ σ' : Situation} {target : Nat} {code : Descriptor} :
    σ.nextTarget = .ok (target, code, σ') ↔
      ∃ bitmap, σ.bitmap.nextTarget = .ok (target, bitmap) ∧ σ.codes[target]? = some code ∧
        σ' = { σ with bitmap } := by
  unfold nextTarget
  simp only [bind_eq_ok, Prod.exists]
  constructor
  · rintro ⟨target', bitmap, found, known⟩
    split at known
    next code' here =>
      cases known
      exact ⟨bitmap, found, here, rfl⟩
    · cases known
  · rintro ⟨bitmap, found, here, rfl⟩
    refine ⟨target, bitmap, found, ?_⟩
    rw [here]
    rfl

/-! ## Events -/

def place (code : Descriptor) (field : Field) (σ : Situation) : Except Error (Task × Situation) :=
  let width := σ.modifiers.associatedWidthOf code
  if σ.bitmap.takesElement code then do
    let (target, _, σ) ← σ.nextTarget
    return (.attach target code field width, σ)
  else .ok (.value code field width, σ.emit code)

theorem place_ok_iff {code : Descriptor} {field : Field} {σ σ' : Situation} {task : Task} :
    σ.place code field = .ok (task, σ') ↔
      (∃ target targetCode, σ.bitmap.takesElement code ∧
        σ.nextTarget = .ok (target, targetCode, σ') ∧
        task = .attach target code field (σ.modifiers.associatedWidthOf code)) ∨
      (σ.bitmap.takesElement code = false ∧
        task = .value code field (σ.modifiers.associatedWidthOf code) ∧ σ' = σ.emit code) := by
  unfold place
  constructor
  · intro h
    split at h
    next takes =>
      obtain ⟨⟨target, targetCode, σ₁⟩, found, same⟩ := bind_eq_ok.1 h
      cases same
      exact Or.inl ⟨target, targetCode, takes, found, rfl⟩
    next takes =>
      cases h
      exact Or.inr ⟨Bool.eq_false_iff.2 takes, rfl, rfl⟩
  · rintro (⟨target, targetCode, takes, found, rfl⟩ | ⟨free, rfl, rfl⟩)
    · simp only [takes, ↓reduceIte]
      exact bind_eq_ok.2 ⟨_, found, rfl⟩
    · simp only [free, Bool.false_eq_true, ↓reduceIte]

def known (code : Descriptor) (info : ElementInfo) (localWidth? : Option Nat) (σ : Situation) :
    Except Error (Task × Situation) := do
  let (empty, modifiers) := σ.modifiers.pass code
  let σ := { σ with modifiers }
  if empty then return (.skip code, σ.emit code)
  else
    let (field, modifiers) ← σ.modifiers.field info localWidth?
    { σ with modifiers }.place code field

theorem settles_of_known {code : Descriptor} {info : ElementInfo} {localWidth? : Option Nat}
    {σ σ' : Situation} {task : Task} (h : σ.known code info localWidth? = .ok (task, σ')) :
    task.Settles := by
  unfold known at h
  simp only at h
  split at h
  · cases h
    trivial
  · obtain ⟨_, _, h⟩ := bind_eq_ok.1 h
    rcases place_ok_iff.1 h with ⟨_, _, _, _, rfl⟩ | ⟨_, rfl, _⟩ <;> trivial

def element (resolver : Resolver) (code : Descriptor) (σ : Situation) :
    Except Error (Task × Situation) :=
  match σ.modifiers.referenceWidth? with
  | some width => .ok (.define code width, σ)
  | none =>
    if code = .dataPresent ∧ σ.bitmap.isCollecting then .ok (.entry, σ)
    else do
      let σ ← σ.settle
      let localWidth? := σ.modifiers.localWidth?
      let σ := { σ with modifiers.localWidth? := none }
      match resolver.element code, localWidth? with
      | .ok info, _ => σ.known code info localWidth?
      | .error e, some width =>
        if e.kind = .notFound then .ok (.unlisted code width, σ.emit code) else .error e
      | .error e, none => .error e

def count (resolver : Resolver) (code : Descriptor) (passes : UInt64) (σ : Situation) :
    Except Error (Task × Situation) := do
  let info ← resolver.element code
  return (.count code info passes, σ.emit code)

def marker (resolver : Resolver) (code : Descriptor) (kind : BitmapKind) (σ : Situation) :
    Except Error (Task × Situation) :=
  if σ.bitmap.kind? ≠ some kind then .error (.markerMismatch code)
  else do
    let (target, targetCode, σ) ← σ.nextTarget
    let (field, modifiers) ← σ.modifiers.markerField resolver kind targetCode
    return (.attach target code field 0, { σ with modifiers })

def operator (resolver : Resolver) (walk : Walk) (code : Descriptor) (σ : Situation) :
    Except Error (Task × Situation) := do
  match ← Operator.ofDescriptor code with
  | .modify modification => return (.other, { σ with modifiers := σ.modifiers.apply modification })
  | .insertText octets =>
    let σ ← σ.settle
    return (.value code (.inserted code octets) 0, σ.emit code)
  | .bitmap kind =>
    let σ ← σ.settle
    return (.opens kind walk σ.referable,
      { σ with bitmap := σ.bitmap.start kind σ.referable.size })
  | .marker kind => (← σ.settle).marker resolver code kind
  | .keepBitmap => return (.other, { σ with bitmap := σ.bitmap.keep })
  | .reuseBitmap => return (.reuses, { σ with bitmap := ← σ.bitmap.reuse })
  | .forgetBitmap => return (.other, { σ with bitmap := σ.bitmap.forget })
  | .cancelReferrals =>
    let σ ← σ.settle
    return (.cancels, { σ with bitmap := .none })

def task (resolver : Resolver) : Event → Situation → Except Error (Task × Situation)
  | .element code, σ => σ.element resolver code
  | .operator walk code, σ => σ.operator resolver walk code
  | .count _ code passes, σ => σ.count resolver code passes

def record : (task : Task) → task.Data → Situation → Situation
  | .define code _, reference, σ =>
    { σ with modifiers := σ.modifiers.defineReference code reference }
  | .entry, present, σ => { σ with bitmap := σ.bitmap.pushEntry present }
  | _, _, σ => σ

inductive Log (resolver : Resolver) : Situation → List Event → List Action → Situation → Prop where
  | nil {σ} : Log resolver σ [] [] σ
  | cons {σ σ₁ σ' event events task actions} (data : task.Data)
      (first : σ.task resolver event = .ok (task, σ₁))
      (more : Log resolver (σ₁.record task data) events actions σ') :
      Log resolver σ (event :: events) (⟨task, data⟩ :: actions) σ'

def Logged (resolver : Resolver) (template : Template) (actions : List Action) : Prop :=
  ∃ events σ σ', (Walk.start template).Plays resolver events ∧
    Log resolver .start events actions σ ∧ σ.settle = .ok σ'

/-! ## What a step can do -/

def withoutLocal (σ : Situation) : Situation := { σ with modifiers.localWidth? := none }

/-- An element that is neither a definition nor an entry ends an open bitmap and uses a local width
up. -/
structure Begins (σ : Situation) (code : Descriptor) (σ₁ : Situation) : Prop where
  undefined : σ.modifiers.referenceWidth? = none
  noEntry : ¬(code = .dataPresent ∧ σ.bitmap.isCollecting)
  settled : σ.settle = .ok σ₁

inductive Step (resolver : Resolver) : Situation → Event → Task → Situation → Prop where
  | define {σ code width} (defining : σ.modifiers.referenceWidth? = some width) :
      Step resolver σ (.element code) (.define code width) σ
  | entry {σ} (undefined : σ.modifiers.referenceWidth? = none)
      (collecting : σ.bitmap.isCollecting) :
      Step resolver σ (.element .dataPresent) .entry σ
  | unlisted {σ σ₁ code width e} (begins : σ.Begins code σ₁)
      (unknown : resolver.element code = .error e) (notFound : e.kind = .notFound)
      (localWidth : σ₁.modifiers.localWidth? = some width) :
      Step resolver σ (.element code) (.unlisted code width) (σ₁.withoutLocal.emit code)
  | skip {σ σ₁ code info modifiers} (begins : σ.Begins code σ₁)
      (known : resolver.element code = .ok info)
      (gap : σ₁.withoutLocal.modifiers.pass code = (true, modifiers)) :
      Step resolver σ (.element code) (.skip code) ({ σ₁ with modifiers }.emit code)
  | value {σ σ₁ code info modifiers modifiers' field} (begins : σ.Begins code σ₁)
      (known : resolver.element code = .ok info)
      (noGap : σ₁.withoutLocal.modifiers.pass code = (false, modifiers))
      (fieldOk : modifiers.field info σ₁.modifiers.localWidth? = .ok (field, modifiers'))
      (free : σ₁.bitmap.takesElement code = false) :
      Step resolver σ (.element code) (.value code field (modifiers'.associatedWidthOf code))
        ({ σ₁ with modifiers := modifiers' }.emit code)
  | quality {σ σ₁ σ' code info modifiers modifiers' field target targetCode}
      (begins : σ.Begins code σ₁) (known : resolver.element code = .ok info)
      (noGap : σ₁.withoutLocal.modifiers.pass code = (false, modifiers))
      (fieldOk : modifiers.field info σ₁.modifiers.localWidth? = .ok (field, modifiers'))
      (takes : σ₁.bitmap.takesElement code)
      (found : { σ₁ with modifiers := modifiers' }.nextTarget = .ok (target, targetCode, σ')) :
      Step resolver σ (.element code)
        (.attach target code field (modifiers'.associatedWidthOf code)) σ'
  | count {σ replication code info passes} (known : resolver.element code = .ok info) :
      Step resolver σ (.count replication code passes) (.count code info passes) (σ.emit code)
  | modify {σ walk code modification}
      (op : Operator.ofDescriptor code = .ok (.modify modification)) :
      Step resolver σ (.operator walk code) .other
        { σ with modifiers := σ.modifiers.apply modification }
  | insert {σ σ₁ walk code octets} (op : Operator.ofDescriptor code = .ok (.insertText octets))
      (settled : σ.settle = .ok σ₁) :
      Step resolver σ (.operator walk code) (.value code (.inserted code octets) 0) (σ₁.emit code)
  | opens {σ σ₁ walk code kind} (op : Operator.ofDescriptor code = .ok (.bitmap kind))
      (settled : σ.settle = .ok σ₁) :
      Step resolver σ (.operator walk code) (.opens kind walk σ₁.referable)
        { σ₁ with bitmap := σ₁.bitmap.start kind σ₁.referable.size }
  | marker {σ σ₁ σ' walk code kind target targetCode field modifiers}
      (op : Operator.ofDescriptor code = .ok (.marker kind)) (settled : σ.settle = .ok σ₁)
      (sameKind : σ₁.bitmap.kind? = some kind)
      (found : σ₁.nextTarget = .ok (target, targetCode, σ'))
      (fieldOk : σ'.modifiers.markerField resolver kind targetCode = .ok (field, modifiers)) :
      Step resolver σ (.operator walk code) (.attach target code field 0) { σ' with modifiers }
  | keep {σ walk code} (op : Operator.ofDescriptor code = .ok .keepBitmap) :
      Step resolver σ (.operator walk code) .other { σ with bitmap := σ.bitmap.keep }
  | reuse {σ walk code bitmap} (op : Operator.ofDescriptor code = .ok .reuseBitmap)
      (kept : σ.bitmap.reuse = .ok bitmap) :
      Step resolver σ (.operator walk code) .reuses { σ with bitmap }
  | forget {σ walk code} (op : Operator.ofDescriptor code = .ok .forgetBitmap) :
      Step resolver σ (.operator walk code) .other { σ with bitmap := σ.bitmap.forget }
  | cancel {σ σ₁ walk code} (op : Operator.ofDescriptor code = .ok .cancelReferrals)
      (settled : σ.settle = .ok σ₁) :
      Step resolver σ (.operator walk code) .cancels { σ₁ with bitmap := .none }

variable {resolver : Resolver} {σ σ₁ σ' : Situation} {code : Descriptor} {task : Task}

theorem step_of_known {info : ElementInfo} (begins : σ.Begins code σ₁)
    (known : resolver.element code = .ok info)
    (h : σ₁.withoutLocal.known code info σ₁.modifiers.localWidth? = .ok (task, σ')) :
    Step resolver σ (.element code) task σ' := by
  unfold Situation.known at h
  rcases pass : σ₁.withoutLocal.modifiers.pass code with ⟨empty, modifiers⟩
  rw [pass] at h
  cases empty with
  | true =>
      cases h
      exact @Step.skip resolver σ σ₁ code info modifiers begins known pass
  | false =>
      obtain ⟨⟨field, modifiers'⟩, fieldOk, h⟩ := bind_eq_ok.1 h
      rcases place_ok_iff.1 h with ⟨target, targetCode, takes, found, rfl⟩ | ⟨free, rfl, rfl⟩
      · exact .quality begins known pass fieldOk takes found
      · exact @Step.value resolver σ σ₁ code info modifiers modifiers' field begins known pass fieldOk
          free

theorem step_of_element (h : σ.element resolver code = .ok (task, σ')) :
    Step resolver σ (.element code) task σ' := by
  unfold element at h
  split at h
  next width defining =>
    cases h
    exact .define defining
  next undefined =>
    split at h
    next entry =>
      cases h
      obtain ⟨rfl, collecting⟩ := entry
      exact .entry undefined collecting
    next noEntry =>
      obtain ⟨σ₁, settled, h⟩ := bind_eq_ok.1 h
      have begins : σ.Begins code σ₁ := ⟨undefined, noEntry, settled⟩
      simp only at h
      split at h
      next known => exact step_of_known begins known h
      next unknown localWidth =>
        split at h
        next notFound =>
          cases h
          exact .unlisted begins unknown notFound localWidth
        · cases h
      · cases h

theorem step_of_operator {walk : Walk} (h : σ.operator resolver walk code = .ok (task, σ')) :
    Step resolver σ (.operator walk code) task σ' := by
  obtain ⟨op, opOk, h⟩ := bind_eq_ok.1 h
  cases op with
  | modify modification =>
      cases h
      exact .modify opOk
  | insertText octets =>
      obtain ⟨σ₁, settled, h⟩ := bind_eq_ok.1 h
      cases h
      exact .insert opOk settled
  | bitmap kind =>
      obtain ⟨σ₁, settled, h⟩ := bind_eq_ok.1 h
      cases h
      exact .opens opOk settled
  | marker kind =>
      obtain ⟨σ₁, settled, h⟩ := bind_eq_ok.1 h
      unfold marker at h
      split at h
      · cases h
      next sameKind =>
        obtain ⟨⟨target, targetCode, σ₂⟩, found, h⟩ := bind_eq_ok.1 h
        obtain ⟨⟨field, modifiers⟩, fieldOk, h⟩ := bind_eq_ok.1 h
        cases h
        exact .marker opOk settled (not_not.1 sameKind) found fieldOk
  | keepBitmap =>
      cases h
      exact .keep opOk
  | reuseBitmap =>
      obtain ⟨bitmap, kept, h⟩ := bind_eq_ok.1 h
      cases h
      exact .reuse opOk kept
  | forgetBitmap =>
      cases h
      exact .forget opOk
  | cancelReferrals =>
      obtain ⟨σ₁, settled, h⟩ := bind_eq_ok.1 h
      cases h
      exact .cancel opOk settled

theorem step_of_task {event : Event} (h : σ.task resolver event = .ok (task, σ')) :
    Step resolver σ event task σ' := by
  cases event with
  | element code => exact step_of_element h
  | operator walk code => exact step_of_operator h
  | count replication code passes =>
      obtain ⟨info, known, h⟩ := bind_eq_ok.1 h
      cases h
      exact .count known

theorem element_of_begins {info : ElementInfo} (begins : σ.Begins code σ₁)
    (known : resolver.element code = .ok info) :
    σ.element resolver code = σ₁.withoutLocal.known code info σ₁.modifiers.localWidth? := by
  unfold element
  rw [begins.undefined]
  simp only [begins.noEntry, ↓reduceIte, begins.settled, ok_bind, known]
  rfl

theorem task_of_step {event : Event} (step : Step resolver σ event task σ') :
    σ.task resolver event = .ok (task, σ') := by
  cases step with
  | define defining => simp only [Situation.task, element, defining]
  | entry undefined collecting =>
      simp only [Situation.task, element, undefined, collecting, and_self, ↓reduceIte]
  | unlisted begins unknown notFound localWidth =>
      simp only [Situation.task, element, begins.undefined, begins.noEntry, ↓reduceIte, begins.settled,
        ok_bind, unknown, localWidth, notFound]
      rfl
  | skip begins known gap =>
      simp only [Situation.task, element_of_begins begins known, Situation.known, gap, ↓reduceIte]
      rfl
  | value begins known noGap fieldOk free =>
      simp only [Situation.task, element_of_begins begins known, Situation.known, noGap,
        Bool.false_eq_true, ↓reduceIte]
      exact bind_eq_ok.2 ⟨_, fieldOk, place_ok_iff.2 (Or.inr ⟨free, rfl, rfl⟩)⟩
  | quality begins known noGap fieldOk takes found =>
      simp only [Situation.task, element_of_begins begins known, Situation.known, noGap,
        Bool.false_eq_true, ↓reduceIte]
      exact bind_eq_ok.2 ⟨_, fieldOk, place_ok_iff.2 (Or.inl ⟨_, _, takes, found, rfl⟩)⟩
  | count known => exact bind_eq_ok.2 ⟨_, known, rfl⟩
  | modify op => exact bind_eq_ok.2 ⟨_, op, rfl⟩
  | insert op settled => exact bind_eq_ok.2 ⟨_, op, bind_eq_ok.2 ⟨_, settled, rfl⟩⟩
  | opens op settled => exact bind_eq_ok.2 ⟨_, op, bind_eq_ok.2 ⟨_, settled, rfl⟩⟩
  | marker op settled sameKind found fieldOk =>
      refine bind_eq_ok.2 ⟨_, op, bind_eq_ok.2 ⟨_, settled, ?_⟩⟩
      rw [marker, if_neg (not_not.2 sameKind)]
      exact bind_eq_ok.2 ⟨_, found, bind_eq_ok.2 ⟨_, fieldOk, rfl⟩⟩
  | keep op => exact bind_eq_ok.2 ⟨_, op, rfl⟩
  | reuse op kept => exact bind_eq_ok.2 ⟨_, op, bind_eq_ok.2 ⟨_, kept, rfl⟩⟩
  | forget op => exact bind_eq_ok.2 ⟨_, op, rfl⟩
  | cancel op settled => exact bind_eq_ok.2 ⟨_, op, bind_eq_ok.2 ⟨_, settled, rfl⟩⟩

theorem codes_of_step {event : Event} (step : Step resolver σ event task σ') :
    σ'.codes = match task.emitted? with
      | some code => σ.codes.push code
      | none => σ.codes := by
  have settled_codes {σ σ₁ : Situation} (h : σ.settle = .ok σ₁) : σ₁.codes = σ.codes := by
    obtain ⟨bitmap, _, rfl⟩ := settle_ok_iff.1 h
    rfl
  have target_codes {σ σ₁ : Situation} {target : Nat} {targetCode : Descriptor}
      (h : σ.nextTarget = .ok (target, targetCode, σ₁)) : σ₁.codes = σ.codes := by
    obtain ⟨bitmap, _, _, rfl⟩ := nextTarget_ok_iff.1 h
    rfl
  cases step with
  | unlisted begins | skip begins | value begins =>
      have same := settled_codes begins.settled
      simp only [Task.emitted?, emit, withoutLocal, same]
  | quality begins _ _ _ _ found =>
      have same := settled_codes begins.settled
      exact (target_codes found).trans same
  | insert _ settled => simp only [Task.emitted?, emit, settled_codes settled]
  | opens _ settled => simp only [Task.emitted?, settled_codes settled]
  | marker _ settled _ found => exact (target_codes found).trans (settled_codes settled)
  | cancel _ settled => simp only [Task.emitted?, settled_codes settled]
  | define | entry | count | modify | keep | reuse | forget => rfl

theorem codes_record (data : task.Data) : (σ.record task data).codes = σ.codes := by
  cases task <;> rfl

/-! ## Fields of a step -/

theorem toNat_lt_of_isWidth {isText : Bool} {width : Int} (h : Modifiers.isWidth isText width) :
    width.toNat < 2 ^ 32 := by
  cases isText <;> simp [Modifiers.isWidth] at h <;> omega

theorem field_ok_iff {m m' : Modifiers} {info : ElementInfo} {localWidth? : Option Nat}
    {field : Field} :
    m.field info localWidth? = .ok (field, m') ↔
      ∃ width scale reference, m.adjusted info = .ok (width, scale, reference) ∧
        Modifiers.isWidth info.isText (localWidth?.elim width (↑)) ∧
        field = ⟨info.code, (localWidth?.elim width (↑)).toNat, scale,
          (Int64.ofInt ((m.references.lookup info.code).getD reference)).toInt, info.isText⟩ ∧
        m' = { m with references := Modifiers.without info.code m.references } := by
  unfold Modifiers.field
  cases m.adjusted info with
  | error e => simp
  | ok adjusted =>
      obtain ⟨width, scale, reference⟩ := adjusted
      cases localWidth? with
      | none | some bits =>
          simp only [Except.ok.injEq, Prod.mk.injEq, Option.elim]
          constructor
          · intro h
            split at h
            next isWidth =>
              cases h
              exact ⟨width, scale, reference, ⟨rfl, rfl, rfl⟩, isWidth, rfl, rfl⟩
            · cases h
          · rintro ⟨_, _, _, ⟨rfl, rfl, rfl⟩, isWidth, rfl, rfl⟩
            rw [if_pos isWidth]

theorem isSound_field {m m' : Modifiers} {info : ElementInfo} {localWidth? : Option Nat}
    {field : Field} (h : m.field info localWidth? = .ok (field, m')) : field.IsSound := by
  obtain ⟨width, scale, reference, _, isWidth, rfl, _⟩ := field_ok_iff.1 h
  exact ⟨⟨_, rfl⟩, toNat_lt_of_isWidth isWidth⟩

theorem isSound_markerField {m m' : Modifiers} {kind : BitmapKind} {target : Descriptor}
    {field : Field} (h : m.markerField resolver kind target = .ok (field, m')) : field.IsSound := by
  obtain ⟨info, _, h⟩ := bind_eq_ok.1 h
  obtain ⟨⟨field', m₁⟩, fieldOk, h⟩ := bind_eq_ok.1 h
  simp only at h
  split at h
  next =>
    split at h
    · cases h
    next narrow =>
      cases h
      have small := Nat.pow_le_pow_right (show 0 < 2 by decide) (show field'.width ≤ 62 by omega)
      have positive := Nat.two_pow_pos field'.width
      refine ⟨⟨Int64.ofInt (-2 ^ field'.width), ?_⟩, by simp only; omega⟩
      rw [show (-2 ^ field'.width : Int) = -((2 ^ field'.width : Nat) : Int) by simp]
      exact Int64.toInt_ofInt_of_le (by omega) (by omega)
  next =>
    cases h
    exact isSound_field fieldOk

theorem lt_of_insertText {octets : Nat} (h : Operator.ofDescriptor code = .ok (.insertText octets)) :
    octets < 256 := by
  have := code.y.toNat_lt
  unfold Operator.ofDescriptor at h
  split at h
  · split at h
    · cases h
    · split at h <;> cases h
  · split at h
    next op found =>
      cases h
      unfold Operator.ofOperand? at found
      split at found <;> cases found
      omega
    · cases h

theorem isSound_of_step {event : Event} (step : Step resolver σ event task σ') : task.IsSound := by
  cases step with
  | value _ _ _ fieldOk => exact isSound_field fieldOk
  | quality _ _ _ fieldOk => exact isSound_field fieldOk
  | marker _ _ _ _ fieldOk => exact isSound_markerField fieldOk
  | insert op =>
      have := lt_of_insertText op
      exact ⟨⟨0, rfl⟩, by simp only [Field.inserted]; omega⟩
  | _ => trivial

/-! ## Targets are variables -/

structure Bounded (σ : Situation) : Prop where
  referable : ∀ i ∈ σ.referable, i < σ.codes.size
  targets : ∀ targets used, σ.bitmap.phase = .selected targets used → ∀ i ∈ targets, i < σ.codes.size
  kept : ∀ targets, σ.bitmap.kept = some targets → ∀ i ∈ targets, i < σ.codes.size

theorem bounded_start : start.Bounded := by
  refine ⟨?_, ?_, ?_⟩ <;> simp [start, Bitmap.none]

theorem Bounded.refersTo (bounded : σ.Bounded) : σ.bitmap.RefersTo (· < σ.codes.size) :=
  ⟨bounded.targets, bounded.kept⟩

theorem Bounded.withBitmap (bounded : σ.Bounded) {bitmap : Bitmap}
    (refers : bitmap.RefersTo (· < σ.codes.size)) : { σ with bitmap }.Bounded :=
  ⟨bounded.referable, refers.selected, refers.kept⟩

theorem Bounded.emit (bounded : σ.Bounded) (code : Descriptor) : (σ.emit code).Bounded where
  referable i mem := by
    simp only [Situation.emit, Array.size_push] at *
    split at mem
    · rcases Array.mem_push.1 mem with mem | rfl
      · exact Nat.lt_succ_of_lt (bounded.referable i mem)
      · exact Nat.lt_succ_self _
    · exact Nat.lt_succ_of_lt (bounded.referable i mem)
  targets targets used phase i mem := by
    rw [Situation.emit, Array.size_push]
    exact Nat.lt_succ_of_lt (bounded.targets targets used phase i mem)
  kept targets kept i mem := by
    rw [Situation.emit, Array.size_push]
    exact Nat.lt_succ_of_lt (bounded.kept targets kept i mem)

theorem Bounded.withModifiers (bounded : σ.Bounded) (modifiers : Modifiers) :
    { σ with modifiers }.Bounded :=
  ⟨bounded.referable, bounded.targets, bounded.kept⟩

theorem Bounded.settle (bounded : σ.Bounded) (settled : σ.settle = .ok σ') : σ'.Bounded := by
  obtain ⟨bitmap, bitmapOk, rfl⟩ := settle_ok_iff.1 settled
  exact bounded.withBitmap (bounded.refersTo.settle bounded.referable bitmapOk)

theorem Bounded.target_lt (bounded : σ.Bounded) {target : Nat} {bitmap : Bitmap}
    (found : σ.bitmap.nextTarget = .ok (target, bitmap)) : target < σ.codes.size :=
  bounded.refersTo.of_target found

theorem Bounded.nextTarget (bounded : σ.Bounded) {target : Nat} {targetCode : Descriptor}
    (found : σ.nextTarget = .ok (target, targetCode, σ')) : σ'.Bounded := by
  obtain ⟨bitmap, bitmapOk, _, rfl⟩ := nextTarget_ok_iff.1 found
  exact bounded.withBitmap (bounded.refersTo.nextTarget bitmapOk)

theorem Bounded.step (bounded : σ.Bounded) {event : Event}
    (step : Step resolver σ event task σ') : σ'.Bounded := by
  cases step with
  | define | entry => exact bounded
  | unlisted begins | skip begins | value begins =>
      have settled := bounded.settle begins.settled
      exact (settled.withModifiers _).emit _
  | quality begins _ _ _ _ found =>
      have settled := bounded.settle begins.settled
      exact (settled.withModifiers _).nextTarget found
  | count => exact bounded.emit _
  | modify => exact bounded.withModifiers _
  | insert _ settled => exact (bounded.settle settled).emit _
  | opens _ settled =>
      have settled := bounded.settle settled
      exact ⟨settled.referable, nofun, settled.kept⟩
  | marker _ settled _ found =>
      exact ((bounded.settle settled).nextTarget found).withModifiers _
  | keep => exact ⟨bounded.referable, bounded.targets, bounded.kept⟩
  | reuse _ kept => exact bounded.withBitmap (bounded.refersTo.reuse kept)
  | forget => exact ⟨bounded.referable, bounded.targets, nofun⟩
  | cancel _ settled =>
      have settled := bounded.settle settled
      exact ⟨settled.referable, nofun, nofun⟩

theorem Bounded.record (bounded : σ.Bounded) (data : task.Data) : (σ.record task data).Bounded := by
  cases task with
  | entry => exact bounded.withBitmap (bounded.refersTo.pushEntry data)
  | define => exact bounded.withModifiers _
  | _ => exact bounded

/-! ## Open bitmaps -/

theorem isCollecting_of_settle (settled : σ.settle = .ok σ') : σ'.bitmap.isCollecting = false := by
  obtain ⟨bitmap, bitmapOk, rfl⟩ := settle_ok_iff.1 settled
  exact Bitmap.isCollecting_settle bitmapOk

theorem isCollecting_of_nextTarget {target : Nat} {targetCode : Descriptor}
    (found : σ.nextTarget = .ok (target, targetCode, σ')) : σ'.bitmap.isCollecting = false := by
  obtain ⟨bitmap, bitmapOk, _, rfl⟩ := nextTarget_ok_iff.1 found
  exact Bitmap.isCollecting_nextTarget bitmapOk

theorem isCollecting_of_settles {event : Event} (step : Step resolver σ event task σ')
    (settles : task.Settles) (unopened : ∀ kind walk referable, task ≠ .opens kind walk referable) :
    σ'.bitmap.isCollecting = false := by
  cases step with
  | define | entry | count | modify | keep | reuse | forget => cases settles
  | unlisted begins | skip begins | value begins =>
      have idle := isCollecting_of_settle begins.settled
      exact idle
  | quality _ _ _ _ _ found => exact isCollecting_of_nextTarget found
  | insert _ settled =>
      have idle := isCollecting_of_settle settled
      exact idle
  | opens => exact absurd rfl (unopened _ _ _)
  | marker _ _ _ found =>
      have idle := isCollecting_of_nextTarget found
      exact idle
  | cancel => rfl

end Situation

/-! ## Markers -/

theorem Operator.marker_of_ofDescriptor {code : Descriptor} {kind : BitmapKind}
    (op : ofDescriptor code = .ok (.marker kind)) :
    code.x = kind.operatorClass ∧ code.y = 255 ∧ kind ≠ .quality := by
  unfold ofDescriptor at op
  split at op
  next known =>
    split at op
    · cases op
    split at op
    next marks =>
      cases op
      exact ⟨BitmapKind.ofClass?_eq_some known, marks⟩
    · cases op
  next =>
    split at op
    next found =>
      cases op
      unfold ofOperand? at found
      split at found <;> cases found
    · cases op

end Bufr
