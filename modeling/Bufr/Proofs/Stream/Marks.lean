import Bufr.Proofs.Outcome
import Bufr.Stream

/-!
Where a stream looks: the mark that comes next and the extent of the bulletin that begins with it.
-/

namespace Bufr

def Unmarked (front back : Octets) : Prop :=
  ∀ i < front.length, ¬Indicator.mark <+: (front ++ back).drop i

theorem Unmarked.append {front middle back : Octets} (first : Unmarked front (middle ++ back))
    (second : Unmarked middle back) : Unmarked (front ++ middle) back := by
  intro i inside
  rw [List.append_assoc]
  rcases Nat.lt_or_ge i front.length with before | behind
  · exact first i before
  · rw [List.length_append] at inside
    rw [List.drop_append, List.drop_eq_nil_of_le behind, List.nil_append]
    exact second (i - front.length) (by omega)

theorem Unmarked.drop {front back : Octets} (unmarked : Unmarked front back) (count : Nat) :
    Unmarked (front.drop count) back := by
  intro i inside
  rw [List.length_drop] at inside
  rw [← List.drop_append_of_le_length (by omega), List.drop_drop]
  exact unmarked (count + i) (by omega)

namespace Stream

theorem findMark_of_mark {octets : Octets} (marked : Indicator.mark <+: octets) (skipped : Nat) :
    findMark skipped octets = some (skipped, octets) := by
  cases octets with
  | nil => exact absurd (List.prefix_nil.1 marked) nofun
  | cons octet rest => rw [findMark, if_pos (List.isPrefixOf_iff_prefix.2 marked)]

theorem findMark_of_unmarked {front back : Octets} (unmarked : Unmarked front back) (skipped : Nat) :
    findMark skipped (front ++ back) = findMark (skipped + front.length) back := by
  induction front generalizing skipped with
  | nil => rfl
  | cons octet front ih =>
      have here := unmarked 0 (Nat.succ_pos _)
      have others : Unmarked front back := fun i inside => unmarked (i + 1) (Nat.succ_lt_succ inside)
      rw [List.drop_zero, ← List.isPrefixOf_iff_prefix, List.cons_append] at here
      rw [List.cons_append, findMark, if_neg here, ih others, List.length_cons, Nat.add_assoc,
        Nat.add_comm 1]

theorem findMark_add (skipped more : Nat) (octets : Octets) :
    findMark (skipped + more) octets =
      (findMark more octets).map fun (count, rest) => (skipped + count, rest) := by
  induction octets generalizing more with
  | nil => rfl
  | cons octet rest ih =>
      rw [findMark, findMark]
      split
      · rfl
      · exact ih (more + 1)

theorem findMark_eq_some {skipped count : Nat} {octets rest : Octets}
    (found : findMark skipped octets = some (count, rest)) :
    ∃ front, octets = front ++ rest ∧ count = skipped + front.length ∧ Unmarked front rest ∧
      Indicator.mark <+: rest := by
  induction octets generalizing skipped with
  | nil => cases found
  | cons octet octets ih =>
      rw [findMark] at found
      split at found
      next marked =>
        cases found
        exact ⟨[], rfl, rfl, nofun, List.isPrefixOf_iff_prefix.1 marked⟩
      next unmarked =>
        obtain ⟨front, rfl, rfl, free, marked⟩ := ih found
        refine ⟨octet :: front, rfl, by rw [List.length_cons]; omega, ?_, marked⟩
        rintro (_ | i) inside
        · rwa [List.isPrefixOf_iff_prefix] at unmarked
        · exact free i (Nat.lt_of_succ_lt_succ inside)

theorem next_of_unmarked (resolver : Resolver) (position : Nat) {front back : Octets}
    (unmarked : Unmarked front back) :
    next resolver ⟨position, front ++ back⟩ = next resolver ⟨position + front.length, back⟩ := by
  have found := findMark_of_unmarked unmarked 0
  rw [Nat.zero_add, ← Nat.add_zero front.length, findMark_add] at found
  unfold next
  simp only [found]
  cases findMark 0 back with
  | none => simp [exhausted, Nat.add_assoc]
  | some mark => simp [Nat.add_assoc]

theorem next_of_mark (resolver : Resolver) {stream : Stream} (marked : Indicator.mark <+: stream.rest) :
    next resolver stream =
      (some (take resolver stream).1, (take resolver stream).2) := by
  unfold next
  rw [findMark_of_mark marked]
  rfl

/-! ## Extents -/

/-- As long as it says it is, with an end section at its end. -/
structure IsFramed (octets : Octets) : Prop where
  long : 12 ≤ octets.length
  declared : declaredLength octets = octets.length
  ended : EndSection.mark <:+ octets

theorem declaredLength_append {octets : Octets} (long : 7 ≤ octets.length) (behind : Octets) :
    declaredLength (octets ++ behind) = declaredLength octets := by
  have rest : 3 ≤ (octets.drop 4).length := by
    rw [List.length_drop]
    omega
  rw [declaredLength, List.drop_append_of_le_length (by omega), List.take_append_of_le_length rest]
  rfl

theorem endsAt_iff {octets : Octets} {length : Nat} (long : 12 ≤ length)
    (inside : length ≤ octets.length) :
    endsAt octets length ↔ EndSection.mark <:+ octets.take length := by
  have cut : (octets.take length).length = length := List.length_take_of_le inside
  have four : length - (length - 4) = 4 := by omega
  have size : EndSection.mark.length = 4 := rfl
  rw [List.suffix_iff_eq_drop, cut, size, List.drop_take, four, endsAt, Bool.and_eq_true,
    decide_eq_true_eq, beq_iff_eq, eq_comm]
  exact and_iff_right long

theorem extent_of_isFramed {octets : Octets} (framed : IsFramed octets) (offset : Nat)
    (behind : Octets) : extent offset (octets ++ behind) = .ok octets.length := by
  have long := framed.long
  have declared : declaredLength (octets ++ behind) = octets.length :=
    (declaredLength_append (by omega) behind).trans framed.declared
  have inside : octets.length ≤ (octets ++ behind).length := by simp
  have ends : endsAt (octets ++ behind) octets.length := by
    rw [endsAt_iff long inside, List.take_left]
    exact framed.ended
  simp only [extent, declared, ends]
  rw [if_neg (by omega), if_neg (by omega)]
  rfl

def IsDamaged (octets : Octets) : Prop :=
  octets.length < 8 ∨ declaredLength octets < 12 ∨ octets.length < declaredLength octets ∨
    ¬EndSection.mark <:+ octets.take (declaredLength octets)

theorem extent_of_isDamaged {octets : Octets} (damaged : IsDamaged octets) (offset : Nat) :
    ∃ e, extent offset octets =
      .error (if octets.length < 8 then octets.length else nextMark octets, e) := by
  unfold extent
  by_cases short : octets.length < 8
  · exact ⟨_, by rw [if_pos short, if_pos short]⟩
  by_cases cut : octets.length < declaredLength octets
  · exact ⟨_, by rw [if_neg short, if_pos cut, if_neg short]⟩
  have unframed : endsAt octets (declaredLength octets) = false := by
    rcases damaged with impossible | tiny | impossible | unended
    · exact absurd impossible short
    · rw [endsAt, decide_eq_false (Nat.not_le.2 tiny), Bool.false_and]
    · exact absurd impossible cut
    · by_cases long : 12 ≤ declaredLength octets
      · exact Bool.eq_false_iff.2 fun ends => unended ((endsAt_iff long (Nat.not_lt.1 cut)).1 ends)
      · rw [endsAt, decide_eq_false long, Bool.false_and]
  refine ⟨.badFraming offset (declaredLength octets), ?_⟩
  simp only [unframed]
  rw [if_neg short, if_neg cut, if_neg short]
  rfl

end Stream

/-! ## The mark of a bulletin -/

theorem Input.bind_eq_ok {α β : Type} {input : Input α} {f : α → Input β} {octets rest : Octets}
    {b : β} (read : (input >>= f) octets = .ok (b, rest)) :
    ∃ a middle, input octets = .ok (a, middle) ∧ f a middle = .ok (b, rest) := by
  obtain ⟨⟨a, middle⟩, first, second⟩ := Bufr.bind_eq_ok.1 read
  exact ⟨a, middle, first, second⟩

theorem mark_of_decode {resolver : Resolver} {octets : Octets} {bulletin : Bulletin}
    (decoded : Bulletin.decode resolver octets = .ok bulletin) : Indicator.mark <+: octets := by
  obtain ⟨⟨⟨header, data⟩, left⟩, sections, -⟩ := bind_eq_ok.1 decoded
  obtain ⟨header, behind, readHeader, -⟩ := Input.bind_eq_ok sections
  obtain ⟨indicator, behind, readIndicator, -⟩ := Input.bind_eq_ok readHeader
  obtain ⟨taken, behind, readMark, checked⟩ := Input.bind_eq_ok readIndicator
  obtain ⟨-, rfl⟩ := Input.octets_eq_ok_iff.1 readMark
  dsimp only at checked
  split at checked
  · cases checked
  next same =>
    rw [← Decidable.not_not.1 same]
    exact List.prefix_append taken behind

end Bufr
