import Bufr.Proofs.Outcome
import Bufr.Value
import Mathlib.Data.Rat.Floor
import Mathlib.Tactic.FieldSimp
import Mathlib.Tactic.Linarith
import Mathlib.Tactic.Ring

/-!
Scaled numbers as numbers. Where a value has a scaled word at all, the word is the number that it
stands for, moved by its scale and rounded.
-/

namespace Bufr

def roundAway (q : ℚ) : ℤ := if 0 ≤ q then ⌊q + 1 / 2⌋ else -⌊-q + 1 / 2⌋

theorem roundAway_neg (q : ℚ) : roundAway (-q) = -roundAway q := by
  unfold roundAway
  rcases lt_trichotomy q 0 with negative | rfl | positive
  · rw [if_pos (by linarith), if_neg (by linarith), neg_neg]
  · norm_num
  · rw [if_neg (by linarith), if_pos positive.le, neg_neg]

theorem roundAway_intCast (n : ℤ) : roundAway n = n := by
  have up (n : ℤ) : ⌊(n : ℚ) + 1 / 2⌋ = n := by
    rw [Int.floor_intCast_add]
    norm_num
  unfold roundAway
  split
  · exact up n
  · rw [← Int.cast_neg, up, neg_neg]

theorem roundAway_div {n : ℤ} (positive : 0 ≤ n) {half : ℕ} (divisor : 0 < half) :
    roundAway ((n : ℚ) / (2 * half : ℕ)) = (n + half) / (2 * half : ℕ) := by
  have nonzero : (half : ℚ) ≠ 0 := by exact_mod_cast divisor.ne'
  have shifted : (n : ℚ) / (2 * half : ℕ) + 1 / 2 = ((n + half : ℤ) : ℚ) / (2 * half : ℕ) := by
    push_cast
    field_simp
  rw [roundAway, if_pos (by positivity), shifted, Rat.floor_intCast_div_natCast]

namespace Decimal

theorem half_pow_ten {k : ℕ} (positive : 0 < k) : ∃ half, 0 < half ∧ 10 ^ k = 2 * half := by
  obtain ⟨k, rfl⟩ : ∃ m, k = m + 1 := ⟨k - 1, by omega⟩
  exact ⟨5 * 10 ^ k, by positivity, by ring⟩

theorem toInt_ofInt_tdiv {moved : Int64} {half : ℕ} (divisor : 0 < half) {n : ℤ}
    (sum : moved.toInt = if 0 ≤ n then n + half else n - half) :
    (Int64.ofInt (moved.toInt.tdiv (2 * half : ℕ))).toInt =
      roundAway ((n : ℚ) / (2 * half : ℕ)) := by
  have small := moved.le_toInt
  have large := moved.toInt_lt
  have inside (front : ℤ) : 0 ≤ front → 0 ≤ front / (2 * half : ℕ) ∧ front / (2 * half : ℕ) ≤ front :=
    fun positive => ⟨Int.ediv_nonneg positive (by omega), Int.ediv_le_self _ positive⟩
  split at sum
  next positive =>
    have quotient := Int.tdiv_eq_ediv_of_nonneg (show 0 ≤ moved.toInt by omega) (b := (2 * half : ℕ))
    have bounds := inside moved.toInt (by omega)
    rw [roundAway_div positive divisor, quotient, ← sum]
    exact Int64.toInt_ofInt_of_le (by omega) (by omega)
  next negative =>
    -- Division truncates, so below zero all is as above it with the signs turned around.
    have mirrored : (n : ℚ) / (2 * half : ℕ) = -(((-n : ℤ) : ℚ) / (2 * half : ℕ)) := by
      push_cast
      ring
    have quotient : moved.toInt.tdiv (2 * half : ℕ) = -((-n + half) / (2 * half : ℕ)) := by
      rw [sum, show n - half = -(-n + half) by ring, Int.neg_tdiv,
        Int.tdiv_eq_ediv_of_nonneg (by omega)]
    have bounds := inside (-n + half) (by omega)
    rw [mirrored, roundAway_neg, roundAway_div (by omega) divisor, quotient]
    exact Int64.toInt_ofInt_of_le (by omega) (by omega)

theorem toInt_rescale {mantissa w : Int64} {exponent : ℤ}
    (h : rescale mantissa exponent = some w) :
    w.toInt = roundAway (mantissa.toInt * 10 ^ exponent) := by
  obtain ⟨power, powerOk, h⟩ := Option.bind_eq_some_iff.1 h
  unfold tenTo? at powerOk
  split at powerOk
  · cases powerOk
    split at h
    next raised =>
      have whole : ((mantissa.toInt : ℚ) * 10 ^ exponent) =
          (mantissa.toInt * (10 ^ exponent.natAbs : ℕ) : ℤ) := by
        obtain ⟨k, rfl⟩ := Int.eq_ofNat_of_zero_le raised
        simp
      rw [whole, roundAway_intCast]
      exact word?_eq_some_iff.1 h
    next lowered =>
      obtain ⟨moved, movedOk, h⟩ := Option.bind_eq_some_iff.1 h
      cases h
      obtain ⟨half, divisor, even⟩ := half_pow_ten (show 0 < exponent.natAbs by omega)
      have divided : ((mantissa.toInt : ℚ) * 10 ^ exponent) =
          (mantissa.toInt : ℚ) / (2 * half : ℕ) := by
        have down : exponent = -(exponent.natAbs : ℤ) := by omega
        have inverse : (10 : ℚ) ^ exponent = ((10 ^ exponent.natAbs : ℕ) : ℚ)⁻¹ := by
          conv_lhs => rw [down, zpow_neg, zpow_natCast]
          rw [Nat.cast_pow, Nat.cast_ofNat]
        rw [inverse, even, div_eq_mul_inv]
      have sum := word?_eq_some_iff.1 movedOk
      rw [even, Nat.cast_mul, Nat.cast_ofNat, Int.mul_ediv_cancel_left _ two_ne_zero] at sum
      rw [divided, even]
      exact toInt_ofInt_tdiv divisor sum
  · cases powerOk

end Decimal

namespace Value

def number? : Value → Option ℚ
  | decimal mantissa exponent => some (mantissa.toInt * 10 ^ exponent.toInt)
  | integer number => some number.toInt
  | _ => none

theorem toInt_scaled {value : Value} {scale : ℤ} {w : Int64} (h : value.scaled scale = some w) :
    ∃ q, value.number? = some q ∧ w.toInt = roundAway (q * 10 ^ scale) := by
  cases value with
  | decimal mantissa exponent =>
      refine ⟨_, rfl, ?_⟩
      rw [Decimal.toInt_rescale h, mul_assoc, ← zpow_add₀ (by norm_num), add_comm]
  | integer number => exact ⟨_, rfl, Decimal.toInt_rescale h⟩
  | missing | text => cases h

end Value

end Bufr
