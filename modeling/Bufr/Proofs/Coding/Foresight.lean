import Bufr.Proofs.Coding.Referrals
import Bufr.Proofs.Coding.Rewriting

/-!
Looking ahead against the walk of an encoder. The entries of a bitmap that are counted before the
first of them is written are the ones that the walk writes before the bitmap ends, so an encoder never
runs out of planned entries and never has some left.
-/

namespace Bufr

def Subset.HasCount (subset : Subset) (resolver : Resolver) (index : Nat) (code : Descriptor)
    (passes : UInt64) : Prop :=
  ∃ v info raw, subset.vars[index]? = some v ∧ v.code = code ∧ v.count = .ok passes ∧
    resolver.element code = .ok info ∧
    Decimal.above? passes.toNat (Int64.ofInt info.reference).toInt = some raw ∧
    info.width ≤ 64 ∧ raw ≤ Bits.missing info.width

variable {resolver : Resolver} {template : Template} {subset : Subset} {position taken n : Nat}
  {frames : List Frame} {steps body rest : List Opcode}

/-! ## Looking ahead -/

namespace Coder

variable {State : Type} {coder : Coder State} {walk walk' : Walk} {s s' : State}

theorem Reaches.congr {behind : Walk} (same : walk.next = walk'.next)
    (reached : coder.Reaches resolver (walk', s) (behind, s')) :
    ∃ behind', coder.Reaches resolver (walk, s) (behind', s') ∧ behind'.next = behind.next := by
  rcases Relation.ReflTransGen.cases_head reached with ended | ⟨middle, first, more⟩
  · cases ended
    exact ⟨walk, .refl, same⟩
  · exact ⟨behind, .head ((step_congr same s).trans first) more, rfl⟩

end Coder

namespace Encoder

/-- A bitmap under way: the entries so far and the planned ones still to come. -/
structure Collects (available taken : Nat) (entered left : List Bool) (s : Encoder) : Prop where
  plain : s.modifiers.referenceWidth? = none
  phase : s.bitmap.phase = .collecting available entered.toArray
  planned : s.planned = (entered ++ left).toArray
  taken : s.taken = taken

variable {s s' : Encoder} {available : Nat} {entered left front : List Bool}

theorem Collects.isCollecting (collects : s.Collects available taken entered left) :
    s.bitmap.isCollecting = true := by
  rw [Bitmap.isCollecting, collects.phase]

theorem Collects.entry {present : Bool}
    (collects : s.Collects available taken entered (present :: left)) :
    ∃ s', (coder resolver subset).Answers (.element .dataPresent) s s' ∧
      s'.Collects available taken (entered ++ [present]) left := by
  have planned : s.planned[s.bitmap.entryCount]? = some present := by
    simp [Bitmap.entryCount, collects.phase, collects.planned]
  have fits : (if present then 0 else 1) ≤ Bits.missing 1 := by cases present <;> decide
  have written : s.writer.number 1 (if present then 0 else 1) =
      .ok (s.writer.push (Bits.ofNat 1 (if present then 0 else 1))) :=
    Bits.Writer.number_ok_iff.2 ⟨by decide, fits, rfl⟩
  refine ⟨{ s with
    writer := s.writer.push (Bits.ofNat 1 (if present then 0 else 1))
    bitmap := s.bitmap.pushEntry present }, ?_, collects.plain, ?_, ?_, collects.taken⟩
  · change element resolver subset .dataPresent s = _
    simp only [element, collects.plain, collects.isCollecting, and_self, ↓reduceIte, bitmapEntry,
      planned, written]
    rfl
  · simp [Bitmap.pushEntry, collects.phase]
  · simp [collects.planned]

theorem Collects.keep {walk : Walk} (collects : s.Collects available taken entered left) :
    ∃ s', (coder resolver subset).Answers (.operator walk (.operator 36 0)) s s' ∧
      s'.Collects available taken entered left :=
  ⟨{ s with bitmap := s.bitmap.keep }, rfl, collects.plain, collects.phase, collects.planned,
    collects.taken⟩

theorem take_eq_ok_iff {code : Descriptor} {v : Variable} :
    s.take subset code = .ok (v, s') ↔ subset.vars[s.taken]? = some v ∧ v.code = code ∧
      s' = { s with
        referable := if code.isReferable then s.referable.push s.taken else s.referable
        taken := s.taken + 1 } := by
  unfold take
  cases subset.vars[s.taken]? with
  | none => simp
  | some found =>
      by_cases same : found.code = code
      · simp only [same, ne_eq, not_true_eq_false, ↓reduceIte, Except.ok.injEq, Prod.mk.injEq,
          Option.some.injEq]
        constructor
        · rintro ⟨rfl, rfl⟩
          exact ⟨rfl, same, rfl⟩
        · rintro ⟨rfl, _, rfl⟩
          exact ⟨rfl, rfl⟩
      · simp only [ne_eq, same, not_false_eq_true, ↓reduceIte, reduceCtorEq, Option.some.injEq,
          false_iff]
        rintro ⟨rfl, other, _⟩
        exact same other

theorem count_eq_ok_iff {replication code : Descriptor} {passes : UInt64} :
    count resolver subset replication code s = .ok (passes, s') ↔
      ∃ v info raw, subset.vars[s.taken]? = some v ∧ v.code = code ∧ v.count = .ok passes ∧
        resolver.element code = .ok info ∧
        Decimal.above? passes.toNat (Int64.ofInt info.reference).toInt = some raw ∧
        info.width ≤ 64 ∧ raw ≤ Bits.missing info.width ∧
        s' = { s with
          writer := s.writer.push (Bits.ofNat info.width raw)
          referable := if code.isReferable then s.referable.push s.taken else s.referable
          taken := s.taken + 1 } := by
  simp only [count, bind_eq_ok, Prod.exists, take_eq_ok_iff]
  constructor
  · rintro ⟨info, known, v, _, ⟨here, same, rfl⟩, number, counts, coded⟩
    split at coded
    · cases coded
    next raw above =>
      obtain ⟨w, written, done⟩ := bind_eq_ok.1 coded
      cases done
      obtain ⟨narrow, fits, rfl⟩ := Bits.Writer.number_ok_iff.1 written
      exact ⟨v, info, raw, here, same, counts, known, above, narrow, fits, rfl⟩
  · rintro ⟨v, info, raw, here, same, counts, known, above, narrow, fits, rfl⟩
    have written : s.writer.number info.width raw =
        .ok (s.writer.push (Bits.ofNat info.width raw)) :=
      Bits.Writer.number_ok_iff.2 ⟨narrow, fits, rfl⟩
    refine ⟨info, known, v, _, ⟨here, same, rfl⟩, passes, counts, ?_⟩
    simp only [above, written, ok_bind]
    rfl

theorem Collects.count {replication code : Descriptor} {passes : UInt64}
    (collects : s.Collects available taken entered left)
    (given : subset.HasCount resolver taken code passes) :
    ∃ s', (coder resolver subset).Answers (.count replication code passes) s s' ∧
      s'.Collects available (taken + 1) entered left := by
  rw [← collects.taken] at given ⊢
  obtain ⟨v, info, raw, here, same, counts, known, above, narrow, fits⟩ := given
  have accepted : Encoder.count resolver subset replication code s = .ok (passes, _) :=
    count_eq_ok_iff.2 ⟨v, info, raw, here, same, counts, known, above, narrow, fits, rfl⟩
  exact ⟨_, accepted, collects.plain, collects.phase, collects.planned, rfl⟩

/-! ## The entries of a run -/

theorem settle_eq_ok_iff : s.settle = .ok s' ↔
    (s.bitmap.isCollecting → s.bitmap.entryCount = s.planned.size) ∧
      ∃ bitmap, s.bitmap.settle s.referable = .ok bitmap ∧ s' = { s with bitmap } := by
  unfold settle
  split
  next incomplete => simp [incomplete]
  next complete =>
    rw [not_and, not_not] at complete
    rw [bind_eq_ok]
    constructor
    · rintro ⟨bitmap, bitmapOk, same⟩
      exact ⟨complete, bitmap, bitmapOk, (pure_eq_ok.1 same).symm⟩
    · rintro ⟨_, bitmap, bitmapOk, rfl⟩
      exact ⟨bitmap, bitmapOk, rfl⟩

theorem Collects.settle (collects : s.Collects available taken entered [])
    (enough : entered.length ≤ available) : ∃ s', s.settle = .ok s' := by
  have complete : s.bitmap.entryCount = s.planned.size := by
    simp [Bitmap.entryCount, collects.phase, collects.planned]
  have first : Bitmap.firstCandidate available entered.length = .ok (available - entered.length) :=
    if_neg (Nat.not_lt.2 enough)
  have selects : ∃ bitmap, s.bitmap.settle s.referable = .ok bitmap := by
    simp [Bitmap.settle, collects.phase, first]
  obtain ⟨bitmap, bitmapOk⟩ := selects
  exact ⟨{ s with bitmap }, settle_eq_ok_iff.2 ⟨fun _ => complete, bitmap, bitmapOk, rfl⟩⟩

end Encoder

end Bufr
