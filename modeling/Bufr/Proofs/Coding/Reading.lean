import Bufr.Proofs.Coding.Situation
import Bufr.Subset.Decoding

/-!
Reading a subset is a log of actions with the bits they take, and the subset is what the actions
record.
-/

namespace Bufr

open Bits (number? toNat)

namespace Subset

def record (subset : Subset) : Action → Subset
  | ⟨.define code _, reference⟩ => { subset with references := subset.references.push (code, reference) }
  | ⟨.skip code, _⟩ => subset.push (.missing code)
  | ⟨.count code _ passes, _⟩ => subset.push (.ofValue code (.integer (Int64.ofNat passes.toNat)))
  | ⟨.unlisted code _, value⟩ => subset.push (.ofValue code value)
  | ⟨.value code _ _, data⟩ => subset.push { Variable.ofValue code data.1 with associated := data.2 }
  | ⟨.attach target code _ _, data⟩ =>
    let attached := { Variable.ofValue code data.1 with associated := data.2 }
    { subset with vars := subset.vars.modify target (·.setAttribute attached) }
  | _ => subset

def recordAll (subset : Subset) (actions : List Action) : Subset := actions.foldl record subset

def codes (subset : Subset) : Array Descriptor := subset.vars.map (·.code)

theorem codes_start : Situation.start.codes = empty.codes := Array.map_empty.symm

theorem codes_push (subset : Subset) (v : Variable) :
    (subset.push v).codes = subset.codes.push v.code :=
  Array.map_push

theorem codes_record (subset : Subset) (action : Action) :
    (subset.record action).codes = match action.task.emitted? with
      | some code => subset.codes.push code
      | none => subset.codes := by
  obtain ⟨task, data⟩ := action
  cases task with
  | skip | count | unlisted | value => exact codes_push _ _
  | attach target code field width =>
      apply Array.ext_getElem?
      intro index
      simp only [record, codes, Array.getElem?_map, Array.getElem?_modify, Task.emitted?]
      split
      · cases subset.vars[index]? <;> rfl
      · rfl
  | define | entry | opens | reuses | cancels | other => rfl

end Subset

namespace Decoder

open Situation (Log)

abbrev of (reader : Bits.Reader) (σ : Situation) (subset : Subset) : Decoder :=
  ⟨reader, σ.modifiers, σ.bitmap, subset, σ.referable⟩

variable {r : Bits.Reader} {σ : Situation} {subset : Subset} {s' : Decoder} {resolver : Resolver}

theorem settle_of : (of r σ subset).settle = do return of r (← σ.settle) subset := by
  unfold settle Situation.settle
  cases h : σ.bitmap.settle σ.referable with
  | error e => simp [bind, Except.bind]
  | ok bitmap => simp

theorem emit_of (codes : σ.codes = subset.codes) (v : Variable) :
    (of r σ subset).emit v = of r (σ.emit v.code) (subset.push v) := by
  have size : σ.codes.size = subset.size := by rw [codes, Subset.codes, Array.size_map, Subset.size]
  unfold emit refer Situation.emit
  rw [size]
  split <;> rfl

/-- The decoder does what the task says, with data out of the bits that it takes. -/
def Follows (task? : Except Error (Task × Situation)) (r : Bits.Reader) (subset : Subset)
    (s' : Decoder) : Prop :=
  ∃ task σ' data x r', task? = .ok (task, σ') ∧ task.Reads x data ∧ r.Takes x r' ∧
    s' = of r' (σ'.record task data) (subset.record ⟨task, data⟩)

theorem defineReference_ok_iff {code : Descriptor} {width : Nat} :
    (of r σ subset).defineReference code width = .ok s' ↔
      Follows (.ok (.define code width, σ)) r subset s' := by
  unfold defineReference Follows
  simp only [bind_eq_ok, Prod.exists, Bits.Reader.signed_ok_iff, pure_eq_ok]
  constructor
  · rintro ⟨reference, r', ⟨wide, narrow, x, long, read, taken⟩, rfl⟩
    exact ⟨.define code width, σ, reference, x, r', rfl, ⟨wide, narrow, long, read⟩, taken, rfl⟩
  · rintro ⟨_, _, reference, x, r', same, read, taken, rfl⟩
    cases same
    obtain ⟨wide, narrow, long, read⟩ := read
    exact ⟨reference, r', ⟨wide, narrow, x, long, read, taken⟩, rfl⟩

theorem bitmapEntry_ok_iff :
    (of r σ subset).bitmapEntry = .ok s' ↔ Follows (.ok (.entry, σ)) r subset s' := by
  have bit (x : Bits) (long : x.length = 1) : x = [!decide (toNat x = 0)] := by
    obtain ⟨b, rfl⟩ := List.length_eq_one_iff.1 long
    cases b <;> rfl
  unfold bitmapEntry Follows
  simp only [bind_eq_ok, Prod.exists, Bits.Reader.bits_ok_iff, pure_eq_ok]
  constructor
  · rintro ⟨_, r', ⟨_, x, long, rfl, taken⟩, rfl⟩
    exact ⟨.entry, σ, decide (toNat x = 0), x, r', rfl, bit x long, taken, rfl⟩
  · rintro ⟨_, _, present, x, r', same, read, taken, rfl⟩
    cases same
    cases read
    refine ⟨toNat [!present], r', ⟨by decide, _, rfl, rfl, taken⟩, ?_⟩
    cases present <;> rfl

theorem ofRaw_unlisted (code : Descriptor) (width : Nat) (raw? : Option Nat) :
    (Field.unlisted code width).ofRaw? raw? =
      .ok (match raw? with
        | none => .missing
        | some raw => .integer (Int64.ofNat raw)) := by
  cases raw? with
  | none => rfl
  | some raw =>
      exact Field.ofRaw_eq_ok_iff.2 ⟨Int64.ofNat raw, (Int.add_zero _).symm,
        Task.places_unlisted code width, rfl⟩

theorem localElement_ok_iff (codes : σ.codes = subset.codes) {code : Descriptor} {width : Nat} :
    (of r σ subset).localElement code width = .ok s' ↔
      Follows (.ok (.unlisted code width, σ.emit code)) r subset s' := by
  unfold localElement Follows
  simp only [bind_eq_ok, Prod.exists, Bits.Reader.number_ok_iff, pure_eq_ok]
  constructor
  · rintro ⟨_, r', ⟨narrow, x, long, rfl, taken⟩, rfl⟩
    exact ⟨_, _, _, x, r', rfl, ⟨narrow, long, ofRaw_unlisted ..⟩, taken, emit_of codes _⟩
  · rintro ⟨_, _, v, x, r', found, read, taken, rfl⟩
    cases found
    obtain ⟨narrow, long, read⟩ := read
    cases (ofRaw_unlisted code width (number? x)).symm.trans read
    exact ⟨_, r', ⟨narrow, x, long, rfl, taken⟩, emit_of codes _⟩

theorem associatedField_ok_iff {code : Descriptor} {associated : Option Nat} :
    (of r σ subset).associatedField code = .ok (associated, s') ↔
      ∃ x r', Field.ReadsAssociated (σ.modifiers.associatedWidthOf code) x associated ∧
        r.Takes x r' ∧ s' = of r' σ subset := by
  unfold associatedField Field.ReadsAssociated
  cases width : σ.modifiers.associatedWidthOf code with
  | zero =>
      simp only [Except.ok.injEq, Prod.mk.injEq, ↓reduceIte]
      constructor
      · rintro ⟨rfl, rfl⟩
        exact ⟨[], r, ⟨by decide, rfl, rfl⟩, .refl r, rfl⟩
      · rintro ⟨x, r', ⟨_, empty, rfl⟩, taken, rfl⟩
        cases List.length_eq_zero_iff.1 empty
        rw [taken.eq_of_nil]
        exact ⟨rfl, rfl⟩
  | succ low =>
      simp only [bind_eq_ok, Prod.exists, Bits.Reader.number_ok_iff, pure_eq_ok,
        Prod.mk.injEq, Nat.add_one_ne_zero, ↓reduceIte]
      constructor
      · rintro ⟨_, r', ⟨narrow, x, long, rfl, taken⟩, rfl, rfl⟩
        exact ⟨x, r', ⟨narrow, long, rfl⟩, taken, rfl⟩
      · rintro ⟨x, r', ⟨narrow, long, rfl⟩, taken, rfl⟩
        exact ⟨_, r', ⟨narrow, x, long, rfl, taken⟩, rfl, rfl⟩

theorem size_codes (codes : σ.codes = subset.codes) : σ.codes.size = subset.size := by
  rw [codes, Subset.codes, Array.size_map, Subset.size]

theorem attachTo_ok_iff {target : Nat} {v : Variable} :
    (of r σ subset).attachTo target v = .ok s' ↔ target < subset.size ∧
      s' = of r σ { subset with vars := subset.vars.modify target (·.setAttribute v) } := by
  unfold attachTo
  split
  next inside => simpa [of, eq_comm] using fun _ => inside
  next outside => simpa using fun inside => absurd inside outside

theorem nextTarget_attachTo_ok_iff (codes : σ.codes = subset.codes) {v : Variable} :
    ((of r σ subset).bitmap.nextTarget >>= fun (target, bitmap) =>
      { of r σ subset with bitmap }.attachTo target v) = .ok s' ↔
      ∃ target code σ', σ.nextTarget = .ok (target, code, σ') ∧
        s' = of r σ' { subset with vars := subset.vars.modify target (·.setAttribute v) } := by
  have size := size_codes codes
  have attached_iff (bitmap : Bitmap) (target : Nat) :=
    @attachTo_ok_iff r { σ with bitmap } subset s' target v
  simp only [bind_eq_ok, Prod.exists, Situation.nextTarget_ok_iff]
  constructor
  · rintro ⟨target, bitmap, found, attached⟩
    obtain ⟨inside, rfl⟩ := (attached_iff bitmap target).1 attached
    exact ⟨target, _, _, ⟨bitmap, found, Array.getElem?_eq_getElem (size ▸ inside), rfl⟩, rfl⟩
  · rintro ⟨target, code, _, ⟨bitmap, found, known, rfl⟩, rfl⟩
    obtain ⟨inside, _⟩ := Array.getElem?_eq_some_iff.1 known
    exact ⟨target, bitmap, found, (attached_iff bitmap target).2 ⟨size ▸ inside, rfl⟩⟩

theorem place_ok (codes : σ.codes = subset.codes) {code : Descriptor} (field : Field) {v : Value}
    {associated : Option Nat}
    (placed : (of r σ subset).place { Variable.ofValue code v with associated } = .ok s') :
    ∃ task σ' data, σ.place code field = .ok (task, σ') ∧
      (∀ x, field.ReadsBoth (σ.modifiers.associatedWidthOf code) x (v, associated) →
        task.Reads x data) ∧
      s' = of r (σ'.record task data) (subset.record ⟨task, data⟩) := by
  let width := σ.modifiers.associatedWidthOf code
  unfold place at placed
  split at placed
  next takes =>
    obtain ⟨target, targetCode, σ', found, rfl⟩ := (nextTarget_attachTo_ok_iff codes).1 placed
    exact ⟨.attach target code field width, σ', (v, associated),
      Situation.place_ok_iff.2 (Or.inl ⟨target, targetCode, takes, found, rfl⟩), fun x both => both,
      rfl⟩
  next takes =>
    cases placed
    exact ⟨.value code field width, σ.emit code, (v, associated),
      Situation.place_ok_iff.2 (Or.inr ⟨Bool.eq_false_iff.2 takes, rfl, rfl⟩), fun x both => both,
      emit_of codes _⟩

theorem of_place (codes : σ.codes = subset.codes) {code : Descriptor} {field : Field} {task : Task}
    {σ' : Situation} {data : task.Data} {x : Bits}
    (located : σ.place code field = .ok (task, σ')) (read : task.Reads x data) :
    ∃ v associated, field.ReadsBoth (σ.modifiers.associatedWidthOf code) x (v, associated) ∧
      (of r σ subset).place { Variable.ofValue code v with associated } =
        .ok (of r (σ'.record task data) (subset.record ⟨task, data⟩)) := by
  rcases Situation.place_ok_iff.1 located with ⟨target, targetCode, takes, found, rfl⟩ | ⟨takes, rfl, rfl⟩
  · obtain ⟨v, associated⟩ := data
    refine ⟨v, associated, read, (if_pos takes).trans ?_⟩
    exact (nextTarget_attachTo_ok_iff codes).2 ⟨target, targetCode, σ', found, rfl⟩
  · obtain ⟨v, associated⟩ := data
    refine ⟨v, associated, read, (if_neg (Bool.eq_false_iff.1 takes)).trans ?_⟩
    exact congrArg Except.ok (emit_of codes _)

theorem knownElement_ok_iff (codes : σ.codes = subset.codes) {code : Descriptor}
    {info : ElementInfo} {localWidth? : Option Nat} :
    (of r σ subset).knownElement code info localWidth? = .ok s' ↔
      Follows (σ.known code info localWidth?) r subset s' := by
  unfold knownElement Situation.known Follows
  rcases pass : σ.modifiers.pass code with ⟨empty, modifiers⟩
  cases empty with
  | true =>
      have emitted := @emit_of r { σ with modifiers } subset codes (.missing code)
      simp only [↓reduceIte, pure_eq_ok]
      constructor
      · rintro rfl
        exact ⟨.skip code, _, (), [], r, rfl, rfl, .refl r, emitted⟩
      · rintro ⟨_, _, _, x, r', same, read, taken, rfl⟩
        cases same
        cases read
        rw [taken.eq_of_nil]
        exact emitted
  | false =>
      simp only [Bool.false_eq_true, ↓reduceIte, bind_eq_ok, Prod.exists]
      constructor
      · rintro ⟨field, modifiers', fieldOk, associated, s₁, front, v, r₂, back, placed⟩
        obtain ⟨y, r₁, associatedRead, takenFront, rfl⟩ :=
          (@associatedField_ok_iff r { σ with modifiers := modifiers' } subset _ _ _).1 front
        obtain ⟨z, read, takenBack⟩ := Field.read_ok_iff.1 back
        obtain ⟨task, σ', data, located, readTask, rfl⟩ :=
          @place_ok r₂ { σ with modifiers := modifiers' } subset s' codes code field v associated placed
        exact ⟨task, σ', data, y ++ z, r₂, ⟨field, modifiers', fieldOk, located⟩,
          readTask _ ⟨y, z, rfl, associatedRead, read⟩, takenFront.trans takenBack, rfl⟩
      · rintro ⟨task, σ', data, x, r', ⟨field, modifiers', fieldOk, located⟩, read, taken, rfl⟩
        obtain ⟨v, associated, ⟨y, z, rfl, associatedRead, readField⟩, placed⟩ :=
          @of_place r' { σ with modifiers := modifiers' } subset codes code field task σ' data x
            located read
        obtain ⟨r₁, takenFront, takenBack⟩ := taken.split
        exact ⟨field, modifiers', fieldOk, associated, of r₁ { σ with modifiers := modifiers' } subset,
          (@associatedField_ok_iff r { σ with modifiers := modifiers' } subset _ _ _).2
            ⟨y, r₁, associatedRead, takenFront, rfl⟩,
          v, r', Field.read_ok_iff.2 ⟨z, readField, takenBack⟩, placed⟩

theorem element_ok_iff (codes : σ.codes = subset.codes) {code : Descriptor} :
    element resolver code (of r σ subset) = .ok s' ↔
      Follows (σ.element resolver code) r subset s' := by
  unfold element Situation.element
  simp only
  cases σ.modifiers.referenceWidth? with
  | some width => exact defineReference_ok_iff
  | none =>
      simp only
      split
      · exact bitmapEntry_ok_iff
      rw [settle_of]
      cases settled : σ.settle with
      | error e => simp [Follows, bind, Except.bind]
      | ok σ₁ =>
          have same : σ₁.codes = subset.codes := by
            obtain ⟨bitmap, _, rfl⟩ := Situation.settle_ok_iff.1 settled
            exact codes
          simp only [pure, Except.pure, ok_bind]
          cases found : resolver.element code with
          | ok info =>
              exact @knownElement_ok_iff r { σ₁ with modifiers.localWidth? := none } subset s' same
                code info σ₁.modifiers.localWidth?
          | error e =>
              cases σ₁.modifiers.localWidth? with
              | none => simp [Follows]
              | some width =>
                  simp only
                  split
                  · exact @localElement_ok_iff r { σ₁ with modifiers.localWidth? := none } subset s'
                      same code width
                  · simp [Follows]

theorem count_ok_iff (codes : σ.codes = subset.codes) {replication code : Descriptor}
    {passes : UInt64} :
    count resolver replication code (of r σ subset) = .ok (passes, s') ↔
      Follows (σ.count resolver code passes) r subset s' := by
  unfold count Situation.count Follows
  simp only [bind_eq_ok, Prod.exists, Bits.Reader.bits_ok_iff]
  constructor
  · rintro ⟨info, known, _, r', ⟨narrow, x, long, rfl, taken⟩, counted⟩
    split at counted
    · cases counted
    next positive =>
      cases counted
      have bound := (Int64.ofInt (toNat x + info.reference)).toInt_lt
      generalize passed : Int64.ofInt (toNat x + info.reference) = number at *
      have whole : (UInt64.ofNat number.toInt.toNat).toNat = number.toInt.toNat :=
        UInt64.toNat_ofNat_of_lt' (Nat.lt_trans (by omega) (show 2 ^ 63 < 2 ^ 64 by decide))
      refine ⟨.count code info (.ofNat number.toInt.toNat), σ.emit code, (), x, r',
        ⟨info, known, rfl⟩, ⟨narrow, long, ?_⟩, taken, ?_⟩
      · rw [passed, whole]
        omega
      · have value : Int64.ofNat (UInt64.ofNat number.toInt.toNat).toNat = number := by
          rw [whole, ← Int64.toInt_inj, Int64.toInt_ofNat_of_lt (by omega)]
          omega
        rw [@emit_of r' σ subset codes]
        simp only [Subset.record, value]
        rfl
  · rintro ⟨_, _, _, x, r', ⟨info, known, same⟩, read, taken, rfl⟩
    cases same
    obtain ⟨narrow, long, sum⟩ := read
    refine ⟨info, known, _, r', ⟨narrow, x, long, rfl, taken⟩, ?_⟩
    have bound := (Int64.ofInt (toNat x + info.reference)).toInt_lt
    generalize Int64.ofInt (toNat x + info.reference) = number at *
    rw [if_neg (by omega)]
    have whole : UInt64.ofNat number.toInt.toNat = passes := by
      rw [sum, Int.toNat_natCast, UInt64.ofNat_toNat]
    have value : Int64.ofNat passes.toNat = number := by
      rw [← Int64.toInt_inj, Int64.toInt_ofNat_of_lt (by omega), sum]
    rw [whole, @emit_of r' σ subset codes]
    simp only [Subset.record, value]
    rfl

theorem marker_ok_iff (codes : σ.codes = subset.codes) {code : Descriptor} {kind : BitmapKind} :
    (of r σ subset).marker resolver code kind = .ok s' ↔
      Follows (σ.marker resolver code kind) r subset s' := by
  have size := size_codes codes
  have target_iff {target : Nat} {targetCode : Descriptor} :
      (of r σ subset).targetCode target = .ok targetCode ↔ σ.codes[target]? = some targetCode := by
    rw [codes, Subset.codes, Array.getElem?_map]
    unfold Decoder.targetCode
    cases subset.vars[target]? <;> simp
  unfold marker Situation.marker
  simp only
  split
  · simp [Follows]
  simp only [Follows, bind_eq_ok, Prod.exists, Situation.nextTarget_ok_iff]
  constructor
  · rintro ⟨target, bitmap, found, targetCode, known, field, modifiers, fieldOk, v, r', back, attached⟩
    obtain ⟨x, read, taken⟩ := Field.read_ok_iff.1 back
    obtain ⟨_, rfl⟩ := (@attachTo_ok_iff r' { σ with modifiers, bitmap } subset s' target _).1 attached
    exact ⟨.attach target code field 0, { σ with modifiers, bitmap }, (v, none), x, r',
      ⟨target, targetCode, _, ⟨bitmap, found, target_iff.1 known, rfl⟩, field, modifiers, fieldOk, rfl⟩,
      Field.readsBoth_zero_iff.2 ⟨rfl, read⟩, taken, rfl⟩
  · rintro ⟨_, _, data, x, r', ⟨target, targetCode, _, ⟨bitmap, found, known, rfl⟩, field, modifiers,
      fieldOk, same⟩, read, taken, rfl⟩
    cases same
    obtain ⟨v, associated⟩ := data
    obtain ⟨rfl, alone⟩ := Field.readsBoth_zero_iff.1 read
    obtain ⟨inside, _⟩ := Array.getElem?_eq_some_iff.1 known
    exact ⟨target, bitmap, found, targetCode, target_iff.2 known, field, modifiers, fieldOk, v, r',
      Field.read_ok_iff.2 ⟨x, alone, taken⟩,
      (@attachTo_ok_iff r' { σ with modifiers, bitmap } subset _ target _).2 ⟨size ▸ inside, rfl⟩⟩

theorem follows_silent {task : Task} (silent : task.IsSilent) :
    Follows (.ok (task, σ)) r subset s' ↔ s' = of r σ subset := by
  unfold Follows
  cases task with
  | opens | reuses | cancels | other =>
      constructor
      · rintro ⟨_, _, _, x, r', same, read, taken, rfl⟩
        cases same
        cases read
        rw [taken.eq_of_nil]
        rfl
      · rintro rfl
        exact ⟨_, σ, (), [], r, rfl, rfl, .refl r, rfl⟩
  | _ => cases silent

theorem insertText_ok_iff (codes : σ.codes = subset.codes) {code : Descriptor} {octets : Nat} :
    (do
      let (value, reader) ← Field.readText code octets r
      return { of r σ subset with reader }.emit (.ofValue code value)) = .ok s' ↔
      Follows (.ok (.value code (.inserted code octets) 0, σ.emit code)) r subset s' := by
  have read_iff {x : Bits} {v : Value} :
      (Field.inserted code octets).Reads x v ↔ Field.ReadsText code octets x v := by
    simp only [Field.Reads, Field.octetCount_inserted]
    rfl
  simp only [Follows, bind_eq_ok, Prod.exists, Field.readText_ok_iff, pure_eq_ok]
  constructor
  · rintro ⟨v, r', ⟨x, read, taken⟩, rfl⟩
    exact ⟨.value code (.inserted code octets) 0, σ.emit code, (v, none), x, r', rfl,
      Field.readsBoth_zero_iff.2 ⟨rfl, read_iff.2 read⟩, taken, @emit_of r' σ subset codes _⟩
  · rintro ⟨_, _, data, x, r', same, read, taken, rfl⟩
    cases same
    obtain ⟨v, associated⟩ := data
    obtain ⟨rfl, alone⟩ := Field.readsBoth_zero_iff.1 read
    exact ⟨v, r', ⟨x, read_iff.1 alone, taken⟩, @emit_of r' σ subset codes _⟩

theorem operator_ok_iff (codes : σ.codes = subset.codes) {walk : Walk} {code : Descriptor} :
    operator resolver code (of r σ subset) = .ok s' ↔
      Follows (σ.operator resolver walk code) r subset s' := by
  have settled_iff {next : Decoder → Except Error Decoder}
      {next' : Situation → Except Error (Task × Situation)}
      (each : ∀ σ' : Situation, σ'.codes = subset.codes →
        (next (of r σ' subset) = .ok s' ↔ Follows (next' σ') r subset s')) :
      (of r σ subset).settle >>= next = .ok s' ↔ Follows (σ.settle >>= next') r subset s' := by
    rw [settle_of]
    cases settled : σ.settle with
    | error e => simp [Follows, bind, Except.bind]
    | ok σ' =>
        obtain ⟨bitmap, _, rfl⟩ := Situation.settle_ok_iff.1 settled
        exact each _ codes
  have silent (σ' : Situation) (task : Task) (nothing : task.IsSilent) :
      (.ok (of r σ' subset) : Except Error Decoder) = .ok s' ↔
        Follows (.ok (task, σ')) r subset s' := by
    rw [follows_silent nothing, Except.ok.injEq, eq_comm]
  unfold operator Situation.operator
  cases Operator.ofDescriptor code with
  | error e => simp [Follows, bind, Except.bind]
  | ok op =>
      rw [ok_bind, ok_bind]
      cases op with
      | modify modification =>
          exact silent { σ with modifiers := σ.modifiers.apply modification } .other trivial
      | insertText octets => exact settled_iff fun σ' same => insertText_ok_iff same
      | bitmap kind =>
          exact settled_iff fun σ' _ =>
            silent { σ' with bitmap := σ'.bitmap.start kind σ'.referable.size }
              (.opens kind walk σ'.referable) trivial
      | marker kind => exact settled_iff fun σ' same => marker_ok_iff same
      | keepBitmap => exact silent { σ with bitmap := σ.bitmap.keep } .other trivial
      | reuseBitmap =>
          simp only
          cases σ.bitmap.reuse with
          | error e => simp [Follows, bind, Except.bind]
          | ok bitmap => exact silent { σ with bitmap } .reuses trivial
      | forgetBitmap => exact silent { σ with bitmap := σ.bitmap.forget } .other trivial
      | cancelReferrals =>
          exact settled_iff fun σ' _ => silent { σ' with bitmap := .none } .cancels trivial

theorem answers_iff (codes : σ.codes = subset.codes) {event : Event} :
    (coder resolver).Answers event (of r σ subset) s' ↔
      Follows (σ.task resolver event) r subset s' := by
  cases event with
  | element code => exact element_ok_iff codes
  | operator walk code => exact operator_ok_iff codes
  | count replication code passes => exact count_ok_iff codes

theorem codes_follow {σ' : Situation} {event : Event} {task : Task} (codes : σ.codes = subset.codes)
    (h : σ.task resolver event = .ok (task, σ')) (data : task.Data) :
    (σ'.record task data).codes = (subset.record ⟨task, data⟩).codes := by
  rw [Situation.codes_record, Situation.codes_of_step (Situation.step_of_task h), codes]
  exact (Subset.codes_record subset ⟨task, data⟩).symm

theorem codes_recordAll {σ' : Situation} {events : List Event} {actions : List Action}
    (log : Log resolver σ events actions σ') (codes : σ.codes = subset.codes) :
    σ'.codes = (subset.recordAll actions).codes := by
  induction log generalizing subset with
  | nil => exact codes
  | cons data taskOk _ ih => exact ih (codes_follow codes taskOk data)

theorem answersAll_iff (codes : σ.codes = subset.codes) {events : List Event} :
    (coder resolver).AnswersAll events (of r σ subset) s' ↔
      ∃ actions x r' σ', Log resolver σ events actions σ' ∧ Bits.Spelled Action.Reads actions x ∧
        r.Takes x r' ∧ s' = of r' σ' (subset.recordAll actions) := by
  induction events generalizing r σ subset with
  | nil =>
      constructor
      · intro answers
        cases answers
        exact ⟨[], [], r, σ, .nil, .nil, .refl r, rfl⟩
      · rintro ⟨_, _, r', _, log, spelled, taken, rfl⟩
        cases log
        cases spelled
        rw [taken.eq_of_nil]
        exact .nil
  | cons event events ih =>
      constructor
      · intro answers
        cases answers with
        | cons first more =>
            obtain ⟨task, σ₁, data, x, r₁, taskOk, read, takenFront, rfl⟩ := (answers_iff codes).1 first
            obtain ⟨actions, y, r', σ', log, spelled, takenBack, rfl⟩ :=
              (ih (codes_follow codes taskOk data)).1 more
            exact ⟨⟨task, data⟩ :: actions, x ++ y, r', σ', .cons data taskOk log,
              .cons read spelled, takenFront.trans takenBack, rfl⟩
      · rintro ⟨_, _, r', σ', log, spelled, taken, rfl⟩
        cases log with
        | cons data taskOk log =>
            cases spelled with
            | cons read spelled =>
                obtain ⟨r₁, takenFront, takenBack⟩ := taken.split
                exact .cons ((answers_iff codes).2 ⟨_, _, data, _, r₁, taskOk, read, takenFront, rfl⟩)
                  ((ih (codes_follow codes taskOk data)).2
                    ⟨_, _, r', σ', log, spelled, takenBack, rfl⟩)

end Decoder

/-! ## Subsets -/

structure Reading (resolver : Resolver) (template : Template) (subset : Subset)
    (actions : List Action) (x : Bits) : Prop where
  logged : Situation.Logged resolver template actions
  spelled : Bits.Spelled Action.Reads actions x
  recorded : subset = Subset.empty.recordAll actions

namespace Decoder

variable {resolver : Resolver} {template : Template} {r r' : Bits.Reader}

theorem readSubset_ok_iff {subset : Subset} :
    readSubset resolver template r = .ok (subset, r') ↔
      ∃ actions x, Reading resolver template subset actions x ∧ r.Takes x r' := by
  have start_iff {events : List Event} {s' : Decoder} :
      (coder resolver).AnswersAll events (.start r) s' ↔ _ := answersAll_iff Subset.codes_start
  unfold readSubset
  simp only [bind_eq_ok, Coder.run_eq_ok_iff, start_iff, pure_eq_ok, Prod.mk.injEq]
  constructor
  · rintro ⟨_, ⟨events, plays, actions, x, r₁, σ, log, spelled, taken, rfl⟩, s', settled, rfl, rfl⟩
    rw [settle_of] at settled
    obtain ⟨σ', ended, same⟩ := bind_eq_ok.1 settled
    cases same
    exact ⟨actions, x, ⟨⟨events, σ, σ', plays, log, ended⟩, spelled, rfl⟩, taken⟩
  · rintro ⟨actions, x, ⟨⟨events, σ, σ', plays, log, settled⟩, spelled, rfl⟩, taken⟩
    refine ⟨_, ⟨events, plays, actions, x, r', σ, log, spelled, taken, rfl⟩,
      of r' σ' (Subset.empty.recordAll actions), ?_, rfl, rfl⟩
    rw [settle_of, settled]
    rfl

theorem readSubsets_succ (done : List Subset) (count : Nat) (r : Bits.Reader) :
    readSubsets resolver template done (count + 1) r =
      readSubset resolver template r >>= fun (subset, r) =>
        readSubsets resolver template (subset :: done) count r := by
  rw [readSubsets]
  cases readSubset resolver template r <;> rfl

def SpelledSubset (resolver : Resolver) (template : Template) (subset : Subset) (x : Bits) : Prop :=
  ∃ actions, Reading resolver template subset actions x

theorem readSubsets_ok_iff {count : Nat} {done subsets : List Subset} :
    readSubsets resolver template done count r = .ok (subsets, r') ↔
      ∃ read x, subsets = done.reverse ++ read ∧ read.length = count ∧
        Bits.Spelled (SpelledSubset resolver template) read x ∧ r.Takes x r' := by
  induction count generalizing done r with
  | zero =>
      simp only [readSubsets, Except.ok.injEq, Prod.mk.injEq]
      constructor
      · rintro ⟨rfl, rfl⟩
        exact ⟨[], [], by simp, rfl, .nil, .refl r⟩
      · rintro ⟨read, x, rfl, empty, spelled, taken⟩
        cases List.length_eq_zero_iff.1 empty
        cases spelled
        exact ⟨by simp, taken.eq_of_nil.symm⟩
  | succ count ih =>
      rw [readSubsets]
      constructor
      · intro h
        split at h
        · cases h
        next subset r₁ first =>
          obtain ⟨actions, x, reading, takenFront⟩ := readSubset_ok_iff.1 first
          obtain ⟨read, y, rfl, long, spelled, takenBack⟩ := ih.1 h
          exact ⟨subset :: read, x ++ y, by simp, by simp [long], .cons ⟨actions, reading⟩ spelled,
            takenFront.trans takenBack⟩
      · rintro ⟨read, x, rfl, long, spelled, taken⟩
        cases spelled with
        | nil => cases long
        | cons first spelled =>
            obtain ⟨actions, reading⟩ := first
            obtain ⟨r₁, takenFront, takenBack⟩ := taken.split
            rw [readSubset_ok_iff.2 ⟨actions, _, reading, takenFront⟩]
            exact ih.2 ⟨_, _, by simp, Nat.succ.inj long, spelled, takenBack⟩

end Decoder

theorem decodeSubsets_ok_iff {resolver : Resolver} {template : Template} {data : Octets} {count : Nat}
    {subsets : List Subset} :
    decodeSubsets resolver template data count = .ok subsets ↔
      Subset.fit count ∧ subsets.length = count ∧
        ∃ x y, Bits.Spelled (Decoder.SpelledSubset resolver template) subsets x ∧
          Bits.ofOctets data = x ++ y := by
  unfold decodeSubsets
  split
  next fit =>
    simp only [map_eq_ok_iff, Prod.exists, Decoder.readSubsets_ok_iff, List.reverse_nil,
      List.nil_append]
    constructor
    · rintro ⟨_, r', ⟨read, x, rfl, long, spelled, taken⟩, rfl⟩
      refine ⟨fit, long, x, r'.rest, spelled, ?_⟩
      rw [← Bits.Reader.rest_ofOctets, taken.rest]
    · rintro ⟨_, long, x, y, spelled, split⟩
      rw [← Bits.Reader.rest_ofOctets] at split
      obtain ⟨r', taken⟩ := Bits.Reader.exists_takes split
      exact ⟨subsets, r', ⟨subsets, x, rfl, long, spelled, taken⟩, rfl⟩
  next unfit => simp [unfit]

end Bufr
