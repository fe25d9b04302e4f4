/-!
Numbers are words of 64 bits with a sign. Every step that could leave the word is checked.
-/

namespace Bufr

/-- Powers are those of the core library, whichever algebra is imported beside it. -/
@[default_instance 20000]
instance (priority := high) corePow {α : Type} [NatPow α] : Pow α Nat := instPowNat

namespace Decimal

def word? (n : Int) : Option Int64 :=
  if -2 ^ 63 ≤ n ∧ n < 2 ^ 63 then some (Int64.ofInt n) else none

def tenTo? (k : Nat) : Option Nat := if k ≤ 18 then some (10 ^ k) else none

/-- `mantissa * 10 ^ exponent` to the nearest integer, a half away from zero. -/
def rescale (mantissa : Int64) (exponent : Int) : Option Int64 := do
  let power ← tenTo? exponent.natAbs
  if 0 ≤ exponent then
    word? (mantissa.toInt * power)
  else
    let half : Int := power / 2
    let moved ← word? (if 0 ≤ mantissa.toInt then mantissa.toInt + half else mantissa.toInt - half)
    return Int64.ofInt (moved.toInt.tdiv power)

def above? (n reference : Int) : Option Nat := do
  let left ← word? (n - reference)
  if left.toInt < 0 then none else some left.toInt.toNat

theorem word?_eq_some_iff {n : Int} {w : Int64} : word? n = some w ↔ w.toInt = n := by
  unfold word?
  split
  case isTrue h =>
    have toInt_ofInt : (Int64.ofInt n).toInt = n := Int64.toInt_ofInt_of_le h.1 h.2
    rw [Option.some.injEq]
    exact ⟨fun same => same ▸ toInt_ofInt, fun same => by rw [← same, Int64.ofInt_toInt]⟩
  case isFalse h =>
    constructor
    · intro impossible; cases impossible
    · intro same
      exact absurd ⟨same ▸ w.le_toInt, same ▸ w.toInt_lt⟩ h

theorem word?_toInt (w : Int64) : word? w.toInt = some w := word?_eq_some_iff.2 rfl

theorem above?_eq_some_iff {n reference : Int} {raw : Nat} :
    above? n reference = some raw ↔ raw < 2 ^ 63 ∧ n = raw + reference := by
  unfold above?
  constructor
  · intro h
    obtain ⟨left, inside, h⟩ := Option.bind_eq_some_iff.1 h
    have difference := word?_eq_some_iff.1 inside
    have := left.toInt_lt
    split at h
    · cases h
    · cases h
      omega
  · rintro ⟨small, rfl⟩
    have inside : word? (raw + reference - reference) = some (Int64.ofNat raw) := by
      rw [word?_eq_some_iff, Int64.toInt_ofNat_of_lt small]
      omega
    rw [inside]
    simp only [bind, Option.bind, Int64.toInt_ofNat_of_lt small]
    rw [if_neg (by omega), Int.toNat_natCast]

end Decimal

end Bufr
