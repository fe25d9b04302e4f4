import Bufr.Proofs.Coding.Reading
import Bufr.Subset.Encoding

/-!
Writing a subset is a log of actions with data that the subset supplies, and the bits chosen for
them.
-/

namespace Bufr

theorem drop_of_getElem? {α : Type} {entries : Array α} {taken : Nat} {a : α}
    (found : entries[taken]? = some a) :
    entries.toList.drop taken = a :: entries.toList.drop (taken + 1) := by
  obtain ⟨inside, rfl⟩ := Array.getElem?_eq_some_iff.1 found
  exact List.drop_eq_getElem_cons inside

/-- How much of a subset is used up, and the entries still to come in an open bitmap. -/
structure Supply where
  taken : Nat
  defined : Nat
  planned : List Bool

inductive Supplies (resolver : Resolver) (subset : Subset) : Supply → Action → Supply → Prop where
  | define {supply code width reference}
      (found : subset.references[supply.defined]? = some (code, reference)) :
      Supplies resolver subset supply ⟨.define code width, reference⟩
        { supply with defined := supply.defined + 1 }
  | entry {supply present rest} (next : supply.planned = present :: rest) :
      Supplies resolver subset supply ⟨.entry, present⟩ { supply with planned := rest }
  | skip {supply code v} (closed : supply.planned = [])
      (found : subset.vars[supply.taken]? = some v) (named : v.code = code)
      (missing : v.value = .missing) :
      Supplies resolver subset supply ⟨.skip code, ()⟩ { supply with taken := supply.taken + 1 }
  | count {supply code info passes v} (found : subset.vars[supply.taken]? = some v)
      (named : v.code = code) (counted : v.count = .ok passes) :
      Supplies resolver subset supply ⟨.count code info passes, ()⟩
        { supply with taken := supply.taken + 1 }
  | unlisted {supply code width v} (closed : supply.planned = [])
      (found : subset.vars[supply.taken]? = some v) (named : v.code = code) :
      Supplies resolver subset supply ⟨.unlisted code width, v.value⟩
        { supply with taken := supply.taken + 1 }
  | value {supply code field width v} (closed : supply.planned = [])
      (found : subset.vars[supply.taken]? = some v) (named : v.code = code) :
      Supplies resolver subset supply ⟨.value code field width, (v.value, v.associated)⟩
        { supply with taken := supply.taken + 1 }
  | attach {supply target code field width v a} (closed : supply.planned = [])
      (found : subset.vars[target]? = some v) (attached : v.attached? code = some a) :
      Supplies resolver subset supply ⟨.attach target code field width, (a.value, a.associated)⟩ supply
  /-- A marker finds a value missing where no attribute is. -/
  | absent {supply target code field width v} (closed : supply.planned = [])
      (found : subset.vars[target]? = some v) (unattached : v.attached? code = none)
      (marker : code.x ≠ 33) :
      Supplies resolver subset supply ⟨.attach target code field width, (.missing, none)⟩ supply
  | opens {supply kind walk referable entries} (closed : supply.planned = [])
      (planned : Encoder.plan resolver subset walk kind referable supply.taken = .ok entries) :
      Supplies resolver subset supply ⟨.opens kind walk referable, ()⟩
        { supply with planned := entries.toList }
  | reuses {supply} :
      Supplies resolver subset supply ⟨.reuses, ()⟩ { supply with planned := [] }
  | cancels {supply} (closed : supply.planned = []) :
      Supplies resolver subset supply ⟨.cancels, ()⟩ supply
  | other {supply} : Supplies resolver subset supply ⟨.other, ()⟩ supply

inductive SuppliesAll (resolver : Resolver) (subset : Subset) :
    Supply → List Action → Supply → Prop where
  | nil {supply} : SuppliesAll resolver subset supply [] supply
  | cons {supply supply₁ supply' action actions}
      (first : Supplies resolver subset supply action supply₁)
      (more : SuppliesAll resolver subset supply₁ actions supply') :
      SuppliesAll resolver subset supply (action :: actions) supply'

namespace Encoder

open Situation (Log)

abbrev of (writer : Bits.Writer) (σ : Situation) (supply : Supply) (planned : Array Bool) : Encoder :=
  ⟨writer, σ.modifiers, σ.bitmap, supply.taken, supply.defined, σ.referable, planned⟩

structure Matches (subset : Subset) (σ : Situation) (supply : Supply) (planned : Array Bool) :
    Prop where
  codes : σ.codes = subset.codes.extract 0 supply.taken
  taken_le : supply.taken ≤ subset.size
  bounded : σ.Bounded
  waiting : σ.bitmap.isCollecting → supply.planned = planned.toList.drop σ.bitmap.entryCount ∧
    σ.bitmap.entryCount ≤ planned.size
  closed : σ.bitmap.isCollecting = false → supply.planned = []

variable {w : Bits.Writer} {σ : Situation} {subset : Subset} {supply : Supply}
  {planned : Array Bool} {s' : Encoder} {resolver : Resolver}

theorem Matches.size_codes (same : Matches subset σ supply planned) :
    σ.codes.size = supply.taken := by
  have := same.taken_le
  rw [same.codes, Array.size_extract, Subset.codes, Array.size_map]
  simp only [Subset.size] at this
  omega

theorem take_ok_iff (same : Matches subset σ supply planned) {code : Descriptor} {v : Variable} :
    (of w σ supply planned).take subset code = .ok (v, s') ↔
      subset.vars[supply.taken]? = some v ∧ v.code = code ∧
        s' = of w (σ.emit code) { supply with taken := supply.taken + 1 } planned := by
  have size := same.size_codes
  unfold take Situation.emit
  simp only [size]
  cases found : subset.vars[supply.taken]? with
  | none => simp
  | some u =>
      simp only [Option.some.injEq]
      split
      next other =>
        constructor
        · intro impossible; cases impossible
        · rintro ⟨rfl, named, _⟩
          exact absurd named other
      next named =>
        simp only [Except.ok.injEq, Prod.mk.injEq, eq_comm]
        constructor
        · rintro ⟨rfl, same⟩
          exact ⟨rfl, (not_not.1 named).symm, same⟩
        · rintro ⟨rfl, _, same⟩
          exact ⟨rfl, same⟩

theorem settle_ok_iff (same : Matches subset σ supply planned) :
    (of w σ supply planned).settle = .ok s' ↔
      supply.planned = [] ∧ ∃ σ', σ.settle = .ok σ' ∧ s' = of w σ' supply planned := by
  have complete : (σ.bitmap.isCollecting ∧ σ.bitmap.entryCount ≠ planned.size) ↔
      supply.planned ≠ [] := by
    cases collecting : σ.bitmap.isCollecting with
    | false => simp [same.closed collecting]
    | true =>
        obtain ⟨left, le⟩ := same.waiting collecting
        simp only [left, ne_eq, List.drop_eq_nil_iff, Array.length_toList, true_and]
        omega
  unfold settle
  simp only [complete]
  split
  next open_ => simp [open_]
  next closed =>
    simp only [bind_eq_ok, pure_eq_ok, Situation.settle_ok_iff, not_not.1 closed, true_and]
    constructor
    · rintro ⟨bitmap, settled, rfl⟩
      exact ⟨{ σ with bitmap }, ⟨bitmap, settled, rfl⟩, rfl⟩
    · rintro ⟨_, ⟨bitmap, settled, rfl⟩, rfl⟩
      exact ⟨bitmap, settled, rfl⟩

theorem Matches.settle (same : Matches subset σ supply planned) {σ' : Situation}
    (closed : supply.planned = []) (settled : σ.settle = .ok σ') :
    Matches subset σ' supply planned := by
  have bounded := same.bounded.settle settled
  obtain ⟨bitmap, bitmapOk, rfl⟩ := Situation.settle_ok_iff.1 settled
  refine ⟨same.codes, same.taken_le, bounded, ?_, fun _ => closed⟩
  intro collecting
  rw [Bitmap.isCollecting_settle bitmapOk] at collecting
  cases collecting

theorem Matches.withModifiers (same : Matches subset σ supply planned) (modifiers : Modifiers) :
    Matches subset { σ with modifiers } supply planned :=
  ⟨same.codes, same.taken_le, same.bounded.withModifiers _, same.waiting, same.closed⟩

theorem variableAt_ok_iff {index : Nat} {v : Variable} :
    variableAt subset index = .ok v ↔ subset.vars[index]? = some v := by
  unfold variableAt
  split
  next found => simp [found]
  next absent => simp [absent]

theorem Matches.code_at (same : Matches subset σ supply planned) {index : Nat} {v : Variable}
    (inside : index < supply.taken) (here : subset.vars[index]? = some v) :
    σ.codes[index]? = some v.code := by
  obtain ⟨exists_, _⟩ := Array.getElem?_eq_some_iff.1 here
  rw [same.codes, Array.getElem?_extract, Subset.codes, Array.getElem?_map, Array.size_map,
    Nat.zero_add, here, if_pos (by omega)]
  rfl

theorem nextTarget_ok_iff (same : Matches subset σ supply planned) {target : Nat} {bitmap : Bitmap}
    {v : Variable} :
    (σ.bitmap.nextTarget = .ok (target, bitmap) ∧ subset.vars[target]? = some v) ↔
      σ.nextTarget = .ok (target, v.code, { σ with bitmap }) ∧ subset.vars[target]? = some v := by
  rw [Situation.nextTarget_ok_iff]
  constructor
  · rintro ⟨found, here⟩
    have inside := same.bounded.target_lt found
    rw [same.size_codes] at inside
    exact ⟨⟨bitmap, found, same.code_at inside here, rfl⟩, here⟩
  · rintro ⟨⟨bitmap', found, _, same⟩, here⟩
    cases same
    exact ⟨found, here⟩

theorem target_code (same : Matches subset σ supply planned) {target : Nat}
    {targetCode : Descriptor} {σ' : Situation} {v : Variable}
    (found : σ.nextTarget = .ok (target, targetCode, σ')) (here : subset.vars[target]? = some v) :
    targetCode = v.code := by
  obtain ⟨bitmap, bitmapOk, known, _⟩ := Situation.nextTarget_ok_iff.1 found
  have inside := same.bounded.target_lt bitmapOk
  rw [same.size_codes] at inside
  exact Option.some.inj (known.symm.trans (same.code_at inside here))

/-! ## Elements -/

def planAfter (planned : Array Bool) (supply : Supply) : Task → Array Bool
  | .opens .. => supply.planned.toArray
  | .reuses => #[]
  | _ => planned

def Follows (resolver : Resolver) (subset : Subset) (task? : Except Error (Task × Situation))
    (w : Bits.Writer) (supply : Supply) (planned : Array Bool) (s' : Encoder) : Prop :=
  ∃ task σ' data supply' x, task? = .ok (task, σ') ∧
    Supplies resolver subset supply ⟨task, data⟩ supply' ∧ task.Writes data x ∧
    s' = of (w.push x) (σ'.record task data) supply' (planAfter planned supply' task)

theorem defineReference_ok_iff {code : Descriptor} {width : Nat} :
    (of w σ supply planned).defineReference subset code width = .ok s' ↔
      Follows resolver subset (.ok (.define code width, σ)) w supply planned s' := by
  unfold defineReference Follows
  constructor
  · intro h
    split at h
    · cases h
    next found reference here =>
      split at h
      · cases h
      next named =>
        obtain ⟨w', written, h⟩ := bind_eq_ok.1 h
        cases h
        obtain ⟨wide, narrow, fits, rfl⟩ := Bits.Writer.signed_ok_iff.1 written
        cases not_not.1 named
        exact ⟨.define code width, σ, reference, { supply with defined := supply.defined + 1 }, _, rfl,
          .define here, ⟨wide, narrow, fits, rfl⟩, rfl⟩
  · rintro ⟨_, _, reference, supply', x, same, supplied, written, rfl⟩
    cases same
    obtain ⟨wide, narrow, fits, rfl⟩ := written
    cases supplied with
    | define here =>
        simp only [here]
        rw [if_neg (not_not.2 rfl)]
        exact bind_eq_ok.2 ⟨_, Bits.Writer.signed_ok_iff.2 ⟨wide, narrow, fits, rfl⟩, rfl⟩

theorem bitmapEntry_ok_iff (same : Matches subset σ supply planned)
    (collecting : σ.bitmap.isCollecting) :
    (of w σ supply planned).bitmapEntry = .ok s' ↔
      Follows resolver subset (.ok (.entry, σ)) w supply planned s' := by
  obtain ⟨left, _⟩ := same.waiting collecting
  have next_iff {present : Bool} : planned[σ.bitmap.entryCount]? = some present ↔
      ∃ rest, supply.planned = present :: rest := by
    rw [left, ← List.head?_eq_some_iff, List.head?_drop, Array.getElem?_toList]
  have bit_iff {present : Bool} {w' : Bits.Writer} :
      w.number 1 (if present then 0 else 1) = .ok w' ↔ w' = w.push [!present] := by
    rw [Bits.Writer.number_ok_iff]
    cases present <;> simp [Bits.missing, Bits.ofNat]
  unfold bitmapEntry Follows
  constructor
  · intro h
    split at h
    · cases h
    next present here =>
      obtain ⟨w', written, h⟩ := bind_eq_ok.1 h
      cases h
      cases bit_iff.1 written
      obtain ⟨rest, next⟩ := next_iff.1 here
      exact ⟨.entry, σ, present, { supply with planned := rest }, _, rfl, .entry next, rfl, rfl⟩
  · rintro ⟨_, _, present, supply', x, same, supplied, written, rfl⟩
    cases same
    cases written
    cases supplied with
    | entry next =>
        have here := next_iff.2 ⟨_, next⟩
        simp only [here]
        exact bind_eq_ok.2 ⟨_, bit_iff.2 rfl, rfl⟩

theorem localElement_ok_iff (same : Matches subset σ supply planned) (closed : supply.planned = [])
    {code : Descriptor} {width : Nat} :
    (of w σ supply planned).localElement subset code width = .ok s' ↔
      Follows resolver subset (.ok (.unlisted code width, σ.emit code)) w supply planned s' := by
  unfold localElement Follows
  simp only [bind_eq_ok, Prod.exists, take_ok_iff same]
  constructor
  · rintro ⟨v, s₁, ⟨found, named, rfl⟩, h⟩
    have supplied : Supplies resolver subset supply ⟨.unlisted code width, v.value⟩
        { supply with taken := supply.taken + 1 } := .unlisted closed found named
    cases value : v.value with
    | missing =>
        rw [value] at h supplied
        obtain ⟨w', written, h⟩ := bind_eq_ok.1 h
        cases h
        obtain ⟨narrow, fits, rfl⟩ := Bits.Writer.number?_ok_iff.1 written
        exact ⟨_, _, _, _, _, rfl, supplied,
          Task.writesUnlisted_iff.2 ⟨narrow, none, Or.inl ⟨rfl, rfl⟩, fits, rfl⟩, rfl⟩
    | integer n =>
        rw [value] at h supplied
        simp only at h
        split at h
        next positive =>
          obtain ⟨w', written, h⟩ := bind_eq_ok.1 h
          cases h
          obtain ⟨narrow, fits, rfl⟩ := Bits.Writer.number?_ok_iff.1 written
          exact ⟨_, _, _, _, _, rfl, supplied, Task.writesUnlisted_iff.2
            ⟨narrow, _, Or.inr ⟨n, rfl, positive, rfl⟩, fits, rfl⟩, rfl⟩
        · cases h
    | decimal | text => rw [value] at h; cases h
  · rintro ⟨_, _, value, supply', x, same, supplied, written, rfl⟩
    cases same
    cases supplied with
    | unlisted _ found named =>
        obtain ⟨narrow, n?, value, fits, rfl⟩ := Task.writesUnlisted_iff.1 written
        have write : w.number? width n? = .ok (w.push (Bits.ofNumber? width n?)) :=
          Bits.Writer.number?_ok_iff.2 ⟨narrow, fits, rfl⟩
        refine ⟨_, _, ⟨found, named, rfl⟩, ?_⟩
        rcases value with ⟨missing, rfl⟩ | ⟨n, number, positive, rfl⟩
        · rw [missing]
          exact bind_eq_ok.2 ⟨_, write, rfl⟩
        · rw [number]
          simp only [positive, ↓reduceIte]
          exact bind_eq_ok.2 ⟨_, write, rfl⟩

theorem associatedField_ok_iff {code : Descriptor} {associated : Option Nat} :
    (of w σ supply planned).associatedField code associated = .ok s' ↔
      ∃ x, Field.WritesAssociated (σ.modifiers.associatedWidthOf code) associated x ∧
        s' = of (w.push x) σ supply planned := by
  unfold associatedField Field.WritesAssociated
  cases width : σ.modifiers.associatedWidthOf code with
  | zero => simp [eq_comm]
  | succ low =>
      simp only [bind_eq_ok, Bits.Writer.number?_ok_iff, pure_eq_ok, Nat.add_one_ne_zero, ↓reduceIte]
      constructor
      · rintro ⟨_, ⟨narrow, fits, rfl⟩, rfl⟩
        exact ⟨_, ⟨narrow, fits, rfl⟩, rfl⟩
      · rintro ⟨_, ⟨narrow, fits, rfl⟩, rfl⟩
        exact ⟨_, ⟨narrow, fits, rfl⟩, rfl⟩

theorem writeBoth_ok_iff {code : Descriptor} {field : Field} {v : Value} {associated : Option Nat} :
    ((of w σ supply planned).associatedField code associated >>= fun s => do
      return { s with writer := ← field.write v s.writer }) = .ok s' ↔
      ∃ x, field.WritesBoth (σ.modifiers.associatedWidthOf code) (v, associated) x ∧
        s' = of (w.push x) σ supply planned := by
  simp only [bind_eq_ok, associatedField_ok_iff, Field.write_ok_iff, pure_eq_ok]
  constructor
  · rintro ⟨_, ⟨y, front, rfl⟩, _, ⟨z, back, rfl⟩, rfl⟩
    exact ⟨y ++ z, ⟨y, z, rfl, front, back⟩, by rw [Bits.Writer.push_append]⟩
  · rintro ⟨_, ⟨y, z, rfl, front, back⟩, rfl⟩
    exact ⟨_, ⟨y, front, rfl⟩, _, ⟨z, back, rfl⟩, by rw [Bits.Writer.push_append]⟩

theorem source_ok_iff (same : Matches subset σ supply planned) {code : Descriptor} {v : Variable} :
    (of w σ supply planned).source subset code = .ok (v, s') ↔
      if σ.bitmap.takesElement code then
        ∃ target u σ', σ.nextTarget = .ok (target, u.code, σ') ∧ subset.vars[target]? = some u ∧
          u.attached? code = some v ∧ s' = of w σ' supply planned
      else
        subset.vars[supply.taken]? = some v ∧ v.code = code ∧
          s' = of w (σ.emit code) { supply with taken := supply.taken + 1 } planned := by
  unfold source
  split
  next =>
    simp only [bind_eq_ok, Prod.exists, variableAt_ok_iff]
    constructor
    · rintro ⟨target, bitmap, found, u, here, h⟩
      obtain ⟨found, here⟩ := (nextTarget_ok_iff same).1 ⟨found, here⟩
      split at h
      next attached =>
        cases h
        exact ⟨target, u, _, found, here, attached, rfl⟩
      · cases h
    · rintro ⟨target, u, σ', found, here, attached, rfl⟩
      obtain ⟨bitmap, _, _, rfl⟩ := Situation.nextTarget_ok_iff.1 found
      obtain ⟨found, here⟩ := (nextTarget_ok_iff same).2 ⟨found, here⟩
      refine ⟨target, bitmap, found, u, here, ?_⟩
      rw [attached]
      rfl
  next => exact take_ok_iff same

theorem place_ok_iff (same : Matches subset σ supply planned) (closed : supply.planned = [])
    {code : Descriptor} {field : Field} :
    ((of w σ supply planned).source subset code >>= fun (v, s) =>
      s.associatedField code v.associated >>= fun s => do
        return { s with writer := ← field.write v.value s.writer }) = .ok s' ↔
      Follows resolver subset (σ.place code field) w supply planned s' := by
  unfold Follows
  constructor
  · intro h
    obtain ⟨⟨v, s₁⟩, sourced, h⟩ := bind_eq_ok.1 h
    have sourced := (source_ok_iff same).1 sourced
    split at sourced
    next takes =>
      obtain ⟨target, u, σ', found, here, attached, rfl⟩ := sourced
      obtain ⟨bitmap, _, _, rfl⟩ := Situation.nextTarget_ok_iff.1 found
      obtain ⟨x, written, rfl⟩ := writeBoth_ok_iff.1 h
      exact ⟨.attach target code field (σ.modifiers.associatedWidthOf code), _, _, supply, x,
        Situation.place_ok_iff.2 (Or.inl ⟨target, _, takes, found, rfl⟩),
        .attach closed here attached, written, rfl⟩
    next takes =>
      obtain ⟨found, named, rfl⟩ := sourced
      obtain ⟨x, written, rfl⟩ := writeBoth_ok_iff.1 h
      exact ⟨.value code field (σ.modifiers.associatedWidthOf code), _, _, _, x,
        Situation.place_ok_iff.2 (Or.inr ⟨Bool.eq_false_iff.2 takes, rfl, rfl⟩),
        .value closed found named, written, rfl⟩
  · rintro ⟨task, σ', data, supply', x, located, supplied, written, rfl⟩
    rcases Situation.place_ok_iff.1 located with ⟨target, targetCode, takes, found, rfl⟩ | ⟨takes, rfl, rfl⟩
    · cases supplied with
      | attach _ here attached =>
          obtain ⟨bitmap, _, _, rfl⟩ := Situation.nextTarget_ok_iff.1 found
          have codeHere := target_code same found here
          refine bind_eq_ok.2 ⟨_, (source_ok_iff same).2 ?_,
            (@writeBoth_ok_iff w { σ with bitmap } supply planned _ code field _ _).2
              ⟨x, written, rfl⟩⟩
          rw [if_pos takes]
          exact ⟨target, _, _, codeHere ▸ found, here, attached, rfl⟩
      | absent _ _ _ marker =>
          simp only [Bitmap.takesElement, Bool.and_eq_true, beq_iff_eq] at takes
          exact absurd takes.1.1 marker
    · cases supplied with
      | value _ here named =>
          refine bind_eq_ok.2 ⟨_, (source_ok_iff same).2 ?_,
            (@writeBoth_ok_iff w (σ.emit code) { supply with taken := supply.taken + 1 } planned _
              code field _ _).2 ⟨x, written, rfl⟩⟩
          rw [if_neg (Bool.eq_false_iff.1 takes)]
          exact ⟨here, named, rfl⟩

theorem knownElement_ok_iff (same : Matches subset σ supply planned) (closed : supply.planned = [])
    {code : Descriptor} {info : ElementInfo} {localWidth? : Option Nat} :
    (of w σ supply planned).knownElement subset code info localWidth? = .ok s' ↔
      Follows resolver subset (σ.known code info localWidth?) w supply planned s' := by
  unfold knownElement Situation.known
  rcases pass : σ.modifiers.pass code with ⟨empty, modifiers⟩
  cases empty with
  | true =>
      have take_iff {v : Variable} {s' : Encoder} :=
        @take_ok_iff w { σ with modifiers } subset supply planned s' (same.withModifiers _) code v
      simp only [↓reduceIte]
      constructor
      · intro h
        obtain ⟨⟨v, s₁⟩, taken, h⟩ := bind_eq_ok.1 h
        obtain ⟨found, named, rfl⟩ := take_iff.1 taken
        simp only at h
        split at h
        next missing =>
          cases h
          refine ⟨.skip code, _, (), _, [], rfl, .skip closed found named ?_, rfl, rfl⟩
          cases value : v.value <;> rw [value] at missing <;> first | rfl | cases missing
        · cases h
      · rintro ⟨_, _, _, supply', x, located, supplied, written, rfl⟩
        cases located
        cases written
        cases supplied with
        | skip _ found named missing =>
            refine bind_eq_ok.2 ⟨_, take_iff.2 ⟨found, named, rfl⟩, ?_⟩
            simp only [missing, Value.isMissing, ↓reduceIte]
            rfl
  | false =>
      simp only [Bool.false_eq_true, ↓reduceIte]
      have place_iff {modifiers : Modifiers} {field : Field} :=
        @place_ok_iff w { σ with modifiers } subset supply planned s' resolver
          (same.withModifiers _) closed code field
      constructor
      · intro h
        obtain ⟨⟨field, modifiers'⟩, fieldOk, h⟩ := bind_eq_ok.1 h
        obtain ⟨task, σ', data, supply', x, located, rest⟩ := place_iff.1 h
        exact ⟨task, σ', data, supply', x, bind_eq_ok.2 ⟨_, fieldOk, located⟩, rest⟩
      · rintro ⟨task, σ', data, supply', x, located, rest⟩
        obtain ⟨⟨field, modifiers'⟩, fieldOk, located⟩ := bind_eq_ok.1 located
        exact bind_eq_ok.2 ⟨_, fieldOk, place_iff.2 ⟨task, σ', data, supply', x, located, rest⟩⟩

theorem closed_of_settles {action : Action} {supply' : Supply} (settles : action.task.Settles)
    (supplied : Supplies resolver subset supply action supply') : supply.planned = [] := by
  cases supplied with
  | skip closed | unlisted closed | value closed | attach closed | absent closed | opens closed
  | cancels closed => exact closed
  | define | entry | count | reuses | other => cases settles

theorem settled_iff (same : Matches subset σ supply planned)
    {next : Encoder → Except Error Encoder} {next' : Situation → Except Error (Task × Situation)}
    (settles : ∀ σ' task σ'', next' σ' = .ok (task, σ'') → task.Settles)
    (each : ∀ σ', Matches subset σ' supply planned → supply.planned = [] →
      (next (of w σ' supply planned) = .ok s' ↔
        Follows resolver subset (next' σ') w supply planned s')) :
    (of w σ supply planned).settle >>= next = .ok s' ↔
      Follows resolver subset (σ.settle >>= next') w supply planned s' := by
  constructor
  · intro h
    obtain ⟨s₁, settled, h⟩ := bind_eq_ok.1 h
    obtain ⟨closed, σ', ended, rfl⟩ := (settle_ok_iff same).1 settled
    obtain ⟨task, σ'', data, supply', x, located, rest⟩ :=
      (each σ' (same.settle closed ended) closed).1 h
    exact ⟨task, σ'', data, supply', x, bind_eq_ok.2 ⟨σ', ended, located⟩, rest⟩
  · rintro ⟨task, σ'', data, supply', x, located, supplied, written, rfl⟩
    obtain ⟨σ', ended, located⟩ := bind_eq_ok.1 located
    have closed := closed_of_settles (settles σ' task σ'' located) supplied
    exact bind_eq_ok.2 ⟨_, (settle_ok_iff same).2 ⟨closed, σ', ended, rfl⟩,
      (each σ' (same.settle closed ended) closed).2
        ⟨task, σ'', data, supply', x, located, supplied, written, rfl⟩⟩

theorem element_ok_iff (same : Matches subset σ supply planned) {code : Descriptor} :
    element resolver subset code (of w σ supply planned) = .ok s' ↔
      Follows resolver subset (σ.element resolver code) w supply planned s' := by
  unfold element Situation.element
  simp only
  cases σ.modifiers.referenceWidth? with
  | some width => exact defineReference_ok_iff
  | none =>
      simp only
      split
      next entry => exact bitmapEntry_ok_iff same entry.2
      refine settled_iff same ?_ ?_
      · intro σ' task σ'' located
        split at located
        · exact Situation.settles_of_known located
        · split at located
          · cases located
            trivial
          · cases located
        · cases located
      · intro σ' same closed
        cases resolver.element code with
        | ok info =>
            exact @knownElement_ok_iff w { σ' with modifiers.localWidth? := none } subset supply
              planned s' resolver (same.withModifiers _) closed code info σ'.modifiers.localWidth?
        | error e =>
            cases σ'.modifiers.localWidth? with
            | none => simp [Follows]
            | some width =>
                simp only
                split
                · exact @localElement_ok_iff w { σ' with modifiers.localWidth? := none } subset supply
                    planned s' resolver (same.withModifiers _) closed code width
                · simp [Follows]

theorem lt_of_count {v : Variable} {passes : UInt64} (counted : v.count = .ok passes) :
    passes.toNat < 2 ^ 63 := by
  unfold Variable.count at counted
  split at counted
  next number _ =>
    split at counted
    · cases counted
      have := number.toInt_lt
      rw [UInt64.toNat_ofNat']
      omega
    · cases counted
  · cases counted

theorem count_ok_iff (same : Matches subset σ supply planned) {replication code : Descriptor}
    {passes : UInt64} :
    count resolver subset replication code (of w σ supply planned) = .ok (passes, s') ↔
      Follows resolver subset (σ.count resolver code passes) w supply planned s' := by
  unfold count Situation.count
  constructor
  · intro h
    obtain ⟨info, known, h⟩ := bind_eq_ok.1 h
    obtain ⟨⟨v, s₁⟩, taken, h⟩ := bind_eq_ok.1 h
    obtain ⟨found, named, rfl⟩ := (take_ok_iff same).1 taken
    obtain ⟨number, counted, h⟩ := bind_eq_ok.1 h
    split at h
    · cases h
    next raw left =>
      obtain ⟨small, sum⟩ := Decimal.above?_eq_some_iff.1 left
      obtain ⟨w', written, h⟩ := bind_eq_ok.1 h
      cases h
      obtain ⟨narrow, fits, rfl⟩ := Bits.Writer.number_ok_iff.1 written
      exact ⟨.count code info passes, _, (), _, _, bind_eq_ok.2 ⟨info, known, rfl⟩,
        .count found named counted,
        ⟨narrow, lt_of_count counted, raw, small, fits, sum, rfl⟩, rfl⟩
  · rintro ⟨_, _, _, supply', x, located, supplied, written, rfl⟩
    obtain ⟨info, known, located⟩ := bind_eq_ok.1 located
    cases located
    obtain ⟨narrow, _, raw, small, fits, sum, rfl⟩ := written
    cases supplied with
    | count found named counted =>
        refine bind_eq_ok.2 ⟨info, known, bind_eq_ok.2 ⟨_, (take_ok_iff same).2 ⟨found, named, rfl⟩,
          bind_eq_ok.2 ⟨passes, counted, ?_⟩⟩⟩
        rw [Decimal.above?_eq_some_iff.2 ⟨small, sum⟩]
        exact bind_eq_ok.2 ⟨_, Bits.Writer.number_ok_iff.2 ⟨narrow, fits, rfl⟩, rfl⟩

theorem marker_ok_iff (same : Matches subset σ supply planned) (closed : supply.planned = [])
    {code : Descriptor} {kind : BitmapKind} (marker : code.x ≠ 33) :
    (of w σ supply planned).marker resolver subset code kind = .ok s' ↔
      Follows resolver subset (σ.marker resolver code kind) w supply planned s' := by
  unfold Encoder.marker Situation.marker
  simp only
  split
  · simp [Follows]
  constructor
  · intro h
    obtain ⟨⟨target, bitmap⟩, found, h⟩ := bind_eq_ok.1 h
    obtain ⟨v, here, h⟩ := bind_eq_ok.1 h
    obtain ⟨found, here⟩ := (nextTarget_ok_iff same).1 ⟨found, variableAt_ok_iff.1 here⟩
    obtain ⟨⟨field, modifiers⟩, fieldOk, h⟩ := bind_eq_ok.1 h
    obtain ⟨w', written, h⟩ := bind_eq_ok.1 h
    cases h
    obtain ⟨x, spelled, rfl⟩ := Field.write_ok_iff.1 written
    cases attached : v.attached? code with
    | some a =>
        rw [attached] at spelled
        exact ⟨.attach target code field 0, _, _, supply, x,
          bind_eq_ok.2 ⟨_, found, bind_eq_ok.2 ⟨_, fieldOk, rfl⟩⟩, .attach closed here attached,
          Field.writesBoth_zero_iff.2 spelled, rfl⟩
    | none =>
        rw [attached] at spelled
        exact ⟨.attach target code field 0, _, _, supply, x,
          bind_eq_ok.2 ⟨_, found, bind_eq_ok.2 ⟨_, fieldOk, rfl⟩⟩, .absent closed here attached marker,
          Field.writesBoth_zero_iff.2 spelled, rfl⟩
  · rintro ⟨_, _, data, supply', x, located, supplied, written, rfl⟩
    obtain ⟨⟨target, targetCode, σ₁⟩, found, located⟩ := bind_eq_ok.1 located
    obtain ⟨⟨field, modifiers⟩, fieldOk, located⟩ := bind_eq_ok.1 located
    cases located
    obtain ⟨bitmap, _, _, rfl⟩ := Situation.nextTarget_ok_iff.1 found
    cases supplied with
    | attach _ here attached =>
        cases target_code same found here
        obtain ⟨found, here⟩ := (nextTarget_ok_iff same).2 ⟨found, here⟩
        have written := Field.writesBoth_zero_iff.1 written
        refine bind_eq_ok.2 ⟨_, found, bind_eq_ok.2 ⟨_, variableAt_ok_iff.2 here,
          bind_eq_ok.2 ⟨_, fieldOk, ?_⟩⟩⟩
        simp only [attached]
        exact bind_eq_ok.2 ⟨_, Field.write_ok_iff.2 ⟨x, written, rfl⟩, rfl⟩
    | absent _ here unattached =>
        cases target_code same found here
        obtain ⟨found, here⟩ := (nextTarget_ok_iff same).2 ⟨found, here⟩
        have written := Field.writesBoth_zero_iff.1 written
        refine bind_eq_ok.2 ⟨_, found, bind_eq_ok.2 ⟨_, variableAt_ok_iff.2 here,
          bind_eq_ok.2 ⟨_, fieldOk, ?_⟩⟩⟩
        simp only [unattached]
        exact bind_eq_ok.2 ⟨_, Field.write_ok_iff.2 ⟨x, written, rfl⟩, rfl⟩

theorem x_ne_of_marker {code : Descriptor} {kind : BitmapKind}
    (op : Operator.ofDescriptor code = .ok (.marker kind)) : code.x ≠ 33 := by
  rw [(Operator.marker_of_ofDescriptor op).1]
  cases kind <;> decide

theorem settles_of_marker {code : Descriptor} {kind : BitmapKind} {task : Task} {σ' : Situation}
    (h : σ.marker resolver code kind = .ok (task, σ')) : task.Settles := by
  unfold Situation.marker at h
  split at h
  · cases h
  · obtain ⟨_, _, h⟩ := bind_eq_ok.1 h
    obtain ⟨_, _, h⟩ := bind_eq_ok.1 h
    cases h
    trivial

theorem insertText_ok_iff (same : Matches subset σ supply planned) (closed : supply.planned = [])
    {code : Descriptor} {octets : Nat} :
    ((of w σ supply planned).take subset code >>= fun (v, s) => do
      return { s with
        writer := ← Field.writeText octets v.value (.numberForInsert code v.value) s.writer }) =
      .ok s' ↔
      Follows resolver subset (.ok (.value code (.inserted code octets) 0, σ.emit code)) w supply
        planned s' := by
  have writes_iff {v : Value} {x : Bits} :
      (Field.inserted code octets).Writes v x ↔ Field.WritesText octets v x := by
    simp only [Field.Writes, Field.octetCount_inserted]
    rfl
  constructor
  · intro h
    obtain ⟨⟨v, s₁⟩, taken, h⟩ := bind_eq_ok.1 h
    obtain ⟨found, named, rfl⟩ := (take_ok_iff same).1 taken
    obtain ⟨w', written, h⟩ := bind_eq_ok.1 h
    cases h
    obtain ⟨x, spelled, rfl⟩ := Field.writeText_ok_iff.1 written
    exact ⟨.value code (.inserted code octets) 0, _, _, _, x, rfl, .value closed found named,
      Field.writesBoth_zero_iff.2 (writes_iff.2 spelled), rfl⟩
  · rintro ⟨_, _, data, supply', x, located, supplied, written, rfl⟩
    cases located
    cases supplied with
    | value _ found named =>
        have spelled := Field.writesBoth_zero_iff.1 written
        exact bind_eq_ok.2 ⟨_, (take_ok_iff same).2 ⟨found, named, rfl⟩,
          bind_eq_ok.2 ⟨_, Field.writeText_ok_iff.2 ⟨x, writes_iff.1 spelled, rfl⟩, rfl⟩⟩

theorem openBitmap_ok_iff (closed : supply.planned = []) {walk : Walk} {kind : BitmapKind} :
    (of w σ supply planned).openBitmap resolver subset walk kind = .ok s' ↔
      Follows resolver subset (.ok (.opens kind walk σ.referable,
        { σ with bitmap := σ.bitmap.start kind σ.referable.size })) w supply planned s' := by
  constructor
  · intro h
    obtain ⟨entries, plan, h⟩ := bind_eq_ok.1 h
    cases h
    exact ⟨.opens kind walk σ.referable, _, (), { supply with planned := entries.toList }, [], rfl,
      .opens closed plan, rfl, rfl⟩
  · rintro ⟨_, _, data, supply', x, located, supplied, written, rfl⟩
    cases located
    cases written
    cases supplied with
    | opens _ plan => exact bind_eq_ok.2 ⟨_, plan, rfl⟩

theorem follows_silent (task : Task) (σ : Situation) (supply' : Supply) (silent : task.IsSilent)
    (supplies : ∀ data supply'', Supplies resolver subset supply ⟨task, data⟩ supply'' ↔
      supply'' = supply') :
    .ok (of w σ supply' (planAfter planned supply' task)) = (.ok s' : Except Error Encoder) ↔
      Follows resolver subset (.ok (task, σ)) w supply planned s' := by
  unfold Follows
  cases task with
  | opens | reuses | cancels | other =>
      constructor
      · rintro ⟨⟩
        exact ⟨_, σ, (), supply', [], rfl, (supplies () _).2 rfl, rfl, rfl⟩
      · rintro ⟨_, _, data, supply'', x, located, supplied, written, rfl⟩
        cases located
        cases written
        cases (supplies data supply'').1 supplied
        rfl
  | _ => cases silent

theorem operator_ok_iff (same : Matches subset σ supply planned) {walk : Walk} {code : Descriptor} :
    operator resolver subset walk code (of w σ supply planned) = .ok s' ↔
      Follows resolver subset (σ.operator resolver walk code) w supply planned s' := by
  have plain (σ' : Situation) : (.ok (of w σ' supply planned) : Except Error Encoder) = .ok s' ↔
      Follows resolver subset (.ok (.other, σ')) w supply planned s' := by
    refine follows_silent .other σ' supply trivial fun _ _ => ⟨?_, ?_⟩
    · rintro ⟨⟩
      rfl
    · rintro rfl
      exact .other
  unfold operator Situation.operator
  cases opOk : Operator.ofDescriptor code with
  | error e => simp [Follows, bind, Except.bind]
  | ok op =>
      rw [ok_bind, ok_bind]
      cases op with
      | modify modification => exact plain { σ with modifiers := σ.modifiers.apply modification }
      | insertText octets =>
          refine settled_iff same ?_ fun σ' same closed => insertText_ok_iff same closed
          intro σ' task σ'' h
          cases h
          trivial
      | bitmap kind =>
          refine settled_iff same ?_ fun σ' same closed => openBitmap_ok_iff closed
          intro σ' task σ'' h
          cases h
          trivial
      | marker kind =>
          exact settled_iff same (fun σ' task σ'' => settles_of_marker)
            fun σ' same closed => marker_ok_iff same closed (x_ne_of_marker opOk)
      | keepBitmap => exact plain { σ with bitmap := σ.bitmap.keep }
      | reuseBitmap =>
          simp only
          cases σ.bitmap.reuse with
          | error e => simp [Follows, bind, Except.bind]
          | ok bitmap =>
              refine follows_silent .reuses { σ with bitmap } { supply with planned := [] } trivial
                fun _ _ => ⟨?_, ?_⟩
              · rintro ⟨⟩
                rfl
              · rintro rfl
                exact .reuses
      | forgetBitmap => exact plain { σ with bitmap := σ.bitmap.forget }
      | cancelReferrals =>
          refine settled_iff same ?_ ?_
          · intro σ' task σ'' h
            cases h
            trivial
          · intro σ' same closed
            refine follows_silent .cancels { σ' with bitmap := .none } supply trivial fun _ _ => ⟨?_, ?_⟩
            · rintro ⟨⟩
              rfl
            · rintro rfl
              exact .cancels closed

theorem answers_iff (same : Matches subset σ supply planned) {event : Event} :
    (coder resolver subset).Answers event (of w σ supply planned) s' ↔
      Follows resolver subset (σ.task resolver event) w supply planned s' := by
  cases event with
  | element code => exact element_ok_iff same
  | operator walk code => exact operator_ok_iff same
  | count replication code passes =>
      exact @count_ok_iff w σ subset supply planned s' resolver same replication code passes

/-! ## Steps keep the encoder in the situation -/

theorem Matches.codes_follow (same : Matches subset σ supply planned) {σ' : Situation} {event : Event}
    {task : Task} {data : task.Data} {supply' : Supply}
    (step : Situation.Step resolver σ event task σ')
    (supplied : Supplies resolver subset supply ⟨task, data⟩ supply') :
    σ'.codes = subset.codes.extract 0 supply'.taken ∧ supply'.taken ≤ subset.size := by
  have grow {v : Variable} (found : subset.vars[supply.taken]? = some v) :
      σ.codes.push v.code = subset.codes.extract 0 (supply.taken + 1) ∧
        supply.taken + 1 ≤ subset.size := by
    obtain ⟨inside, here⟩ := Array.getElem?_eq_some_iff.1 found
    refine ⟨?_, inside⟩
    have longer := Array.push_extract_getElem (i := 0)
      (show supply.taken < subset.codes.size by rwa [Subset.codes, Array.size_map])
    simp only [Subset.codes, Array.getElem_map, Nat.zero_min, here] at longer
    rw [same.codes]
    exact longer
  rw [Situation.codes_of_step step]
  cases supplied with
  | skip _ found named | count found named | unlisted _ found named | value _ found named =>
      subst named
      exact grow found
  | define | entry | attach | absent | opens | reuses | cancels | other =>
      exact ⟨same.codes, same.taken_le⟩

theorem Matches.follow_entry (same : Matches subset σ supply planned) {present : Bool}
    {rest : List Bool} (collecting : σ.bitmap.isCollecting) (next : supply.planned = present :: rest) :
    Matches subset (σ.record .entry present) { supply with planned := rest } planned := by
  obtain ⟨left, le⟩ := same.waiting collecting
  have longer : planned.toList.drop (σ.bitmap.entryCount + 1) = rest := by
    rw [← List.tail_drop, ← left, next, List.tail_cons]
  have inside : σ.bitmap.entryCount + 1 ≤ planned.size := by
    have := congrArg List.length (left.symm.trans next)
    simp only [List.length_drop, Array.length_toList, List.length_cons] at this
    omega
  obtain ⟨isCollecting, entryCount⟩ := Bitmap.pushEntry_collecting present collecting
  refine ⟨same.codes, same.taken_le, @Situation.Bounded.record σ .entry same.bounded present, ?_, ?_⟩
  · intro _
    exact ⟨(entryCount ▸ longer).symm, entryCount ▸ inside⟩
  · intro idle
    cases isCollecting.symm.trans idle

theorem Matches.follow (same : Matches subset σ supply planned) {σ' : Situation} {event : Event}
    {task : Task} {data : task.Data} {supply' : Supply}
    (taskOk : σ.task resolver event = .ok (task, σ'))
    (supplied : Supplies resolver subset supply ⟨task, data⟩ supply') :
    Matches subset (σ'.record task data) supply' (planAfter planned supply' task) := by
  have step := Situation.step_of_task taskOk
  obtain ⟨codes, taken_le⟩ := same.codes_follow step supplied
  have bounded := (same.bounded.step step).record data
  -- A task that settles has used the plan up; any other leaves it as it is, entries apart.
  have closes (settles : task.Settles) (planned_eq : supply'.planned = supply.planned)
      (unopened : ∀ kind walk referable, task ≠ .opens kind walk referable)
      (recorded : (σ'.record task data).bitmap = σ'.bitmap) :
      Matches subset (σ'.record task data) supply' (planAfter planned supply' task) := by
    have idle := Situation.isCollecting_of_settles step settles unopened
    refine ⟨(Situation.codes_record data).trans codes, taken_le, bounded, ?_, ?_⟩
    · intro collecting
      rw [recorded, idle] at collecting
      cases collecting
    · intro _
      rw [planned_eq, closed_of_settles settles supplied]
  have keeps (planned_eq : supply'.planned = supply.planned)
      (isCollecting : (σ'.record task data).bitmap.isCollecting = σ.bitmap.isCollecting)
      (entryCount : (σ'.record task data).bitmap.entryCount = σ.bitmap.entryCount) :
      Matches subset (σ'.record task data) supply' planned := by
    refine ⟨(Situation.codes_record data).trans codes, taken_le, bounded, ?_, ?_⟩
    · rw [isCollecting, entryCount, planned_eq]
      exact same.waiting
    · rw [isCollecting, planned_eq]
      exact same.closed
  cases supplied with
  | skip | unlisted | value | attach | absent | cancels => exact closes trivial rfl nofun rfl
  | define =>
      cases step
      exact keeps rfl rfl rfl
  | count =>
      cases step
      exact keeps rfl rfl rfl
  | other => cases step <;> exact keeps rfl rfl rfl
  | @entry present rest next =>
      cases step with
      | entry undefined collecting =>
          exact same.follow_entry collecting next
  | opens =>
      cases step
      refine ⟨codes, taken_le, bounded, ?_, nofun⟩
      intro _
      exact ⟨by simp [planAfter, Bitmap.start, Bitmap.entryCount, Situation.record], Nat.zero_le _⟩
  | reuses =>
      cases step with
      | reuse _ kept =>
          refine ⟨codes, taken_le, bounded, ?_, fun _ => rfl⟩
          intro collecting
          obtain ⟨_, -, rfl⟩ := Bitmap.reuse_ok_iff.1 kept
          cases collecting

theorem log_of_answersAll (same : Matches subset σ supply planned) {events : List Event}
    (answers : (coder resolver subset).AnswersAll events (of w σ supply planned) s') :
    ∃ actions x σ' supply' planned', Log resolver σ events actions σ' ∧
      SuppliesAll resolver subset supply actions supply' ∧ Bits.Spelled Action.Writes actions x ∧
      Matches subset σ' supply' planned' ∧ s' = of (w.push x) σ' supply' planned' := by
  induction events generalizing w σ supply planned with
  | nil =>
      cases answers
      exact ⟨[], [], σ, supply, planned, .nil, .nil, .nil, same, rfl⟩
  | cons event events ih =>
      cases answers with
      | cons first more =>
          obtain ⟨task, σ₁, data, supply₁, x, taskOk, supplied, written, rfl⟩ :=
            (answers_iff same).1 first
          obtain ⟨actions, y, σ', supply', planned', log, suppliedAll, spelled, same', rfl⟩ :=
            ih (same.follow taskOk supplied) more
          exact ⟨⟨task, data⟩ :: actions, x ++ y, σ', supply', planned', .cons data taskOk log,
            .cons supplied suppliedAll, .cons written spelled, same',
            by rw [Bits.Writer.push_append]⟩

theorem answersAll_of_log (same : Matches subset σ supply planned) {events : List Event}
    {actions : List Action} {x : Bits} {σ' : Situation} {supply' : Supply}
    (log : Log resolver σ events actions σ') (supplied : SuppliesAll resolver subset supply actions supply')
    (spelled : Bits.Spelled Action.Writes actions x) :
    ∃ planned', (coder resolver subset).AnswersAll events (of w σ supply planned)
        (of (w.push x) σ' supply' planned') ∧ Matches subset σ' supply' planned' := by
  induction log generalizing w supply planned x with
  | nil =>
      cases supplied
      cases spelled
      exact ⟨planned, .nil, same⟩
  | cons data taskOk log ih =>
      cases supplied with
      | cons first more =>
          cases spelled with
          | cons written spelled =>
              obtain ⟨planned', answers, same'⟩ := ih (same.follow taskOk first) more spelled
              refine ⟨planned', .cons ((answers_iff same).2
                ⟨_, _, data, _, _, taskOk, first, written, rfl⟩) ?_, same'⟩
              rw [Bits.Writer.push_append]
              exact answers

end Encoder

/-! ## Subsets -/

structure Writing (resolver : Resolver) (template : Template) (subset : Subset)
    (actions : List Action) (x : Bits) : Prop where
  logged : Situation.Logged resolver template actions
  spelled : Bits.Spelled Action.Writes actions x
  supplied : ∃ defined, SuppliesAll resolver subset ⟨0, 0, []⟩ actions ⟨subset.size, defined, []⟩

namespace Encoder

variable {resolver : Resolver} {template : Template} {subset : Subset} {w w' : Bits.Writer}

theorem matches_start : Matches subset .start ⟨0, 0, []⟩ #[] where
  codes := by simp [Situation.start]
  taken_le := Nat.zero_le _
  bounded := Situation.bounded_start
  waiting := nofun
  closed _ := rfl

theorem writeSubset_ok_iff :
    writeSubset resolver template subset w = .ok w' ↔
      ∃ actions x, Writing resolver template subset actions x ∧ w' = w.push x := by
  have start : Encoder.start w = of w .start ⟨0, 0, []⟩ #[] := rfl
  unfold writeSubset
  constructor
  · intro h
    obtain ⟨s, ran, h⟩ := bind_eq_ok.1 h
    obtain ⟨events, plays, answers⟩ := Coder.run_eq_ok_iff.1 ran
    rw [start] at answers
    obtain ⟨actions, x, σ, supply, planned, log, supplied, spelled, same, rfl⟩ :=
      log_of_answersAll matches_start answers
    obtain ⟨s', ended, h⟩ := bind_eq_ok.1 h
    obtain ⟨closed, σ', settled, rfl⟩ := (settle_ok_iff same).1 ended
    split at h
    · cases h
    next all =>
      cases h
      obtain ⟨taken, defined, left⟩ := supply
      have := same.taken_le
      have taken_eq : taken = subset.size := Nat.le_antisymm this (Nat.le_of_not_lt all)
      subst taken_eq
      cases closed
      exact ⟨actions, x, ⟨⟨events, σ, σ', plays, log, settled⟩, spelled, defined, supplied⟩, rfl⟩
  · rintro ⟨actions, x, ⟨⟨events, σ, σ', plays, log, settled⟩, spelled, defined, supplied⟩, rfl⟩
    obtain ⟨planned, answers, same⟩ := answersAll_of_log matches_start log supplied spelled
    refine bind_eq_ok.2 ⟨_, Coder.run_eq_ok_iff.2 ⟨events, plays, start ▸ answers⟩,
      bind_eq_ok.2 ⟨_, (settle_ok_iff same).2 ⟨rfl, σ', settled, rfl⟩, ?_⟩⟩
    rw [if_neg (Nat.lt_irrefl _)]
    rfl

def SpelledSubset (resolver : Resolver) (template : Template) (subset : Subset) (x : Bits) : Prop :=
  ∃ actions, Writing resolver template subset actions x

theorem writeSubsets_ok_iff {subsets : List Subset} :
    writeSubsets resolver template subsets w = .ok w' ↔
      ∃ x, Bits.Spelled (SpelledSubset resolver template) subsets x ∧ w' = w.push x := by
  induction subsets generalizing w with
  | nil =>
      constructor
      · intro h
        cases h
        exact ⟨[], .nil, rfl⟩
      · rintro ⟨x, spelled, rfl⟩
        cases spelled
        rfl
  | cons subset subsets ih =>
      rw [writeSubsets]
      constructor
      · intro h
        split at h
        · cases h
        next w₁ first =>
          obtain ⟨actions, x, writing, rfl⟩ := writeSubset_ok_iff.1 first
          obtain ⟨y, spelled, rfl⟩ := ih.1 h
          exact ⟨x ++ y, .cons ⟨actions, writing⟩ spelled, by rw [Bits.Writer.push_append]⟩
      · rintro ⟨x, spelled, rfl⟩
        cases spelled with
        | cons first spelled =>
            obtain ⟨actions, writing⟩ := first
            rw [writeSubset_ok_iff.2 ⟨actions, _, writing, rfl⟩]
            exact ih.2 ⟨_, spelled, by rw [Bits.Writer.push_append]⟩

end Encoder

theorem encodeSubsets_ok_iff {resolver : Resolver} {template : Template} {subsets : List Subset}
    {data : Octets} :
    encodeSubsets resolver template subsets = .ok data ↔
      ∃ x, Bits.Spelled (Encoder.SpelledSubset resolver template) subsets x ∧
        data = (Bits.Writer.empty.push x).finish := by
  simp only [encodeSubsets, map_eq_ok_iff, Encoder.writeSubsets_ok_iff]
  constructor
  · rintro ⟨_, ⟨x, spelled, rfl⟩, rfl⟩
    exact ⟨x, spelled, rfl⟩
  · rintro ⟨x, spelled, rfl⟩
    exact ⟨_, ⟨x, spelled, rfl⟩, rfl⟩

theorem ofOctets_finish_push (x : Bits) :
    ∃ filling, Bits.ofOctets (Bits.Writer.empty.push x).finish = x ++ filling := by
  rw [Bits.Writer.ofOctets_finish, Bits.Writer.bits_push, Bits.Writer.bits_empty, List.nil_append]
  exact ⟨_, rfl⟩

end Bufr
