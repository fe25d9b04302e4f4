import Bufr.Proofs.Layout.Rounding
import Mathlib.Algebra.Order.Group.Unbundled.Abs

/-!
Which numbers have a scaled word, and which word it is: the integer nearest to the number in units of
the scale. It is found just where everything on the way to it is a word.
-/

namespace Bufr

/-! ## Nearest integers -/

/-- The closest integer to a rational, of two as close the one further from zero. -/
structure IsNearest (q : ℚ) (n : ℤ) : Prop where
  near : |(n : ℚ) - q| ≤ 1 / 2
  tie : |(n : ℚ) - q| = 1 / 2 → |q| < |(n : ℚ)|

namespace IsNearest

variable {q q' : ℚ} {n n' : ℤ}

theorem neg (nearest : IsNearest q n) : IsNearest (-q) (-n) := by
  have mirrored : |((-n : ℤ) : ℚ) - -q| = |(n : ℚ) - q| := by
    rw [Int.cast_neg, neg_sub_neg, abs_sub_comm]
  refine ⟨mirrored ▸ nearest.near, fun tie => ?_⟩
  rw [Int.cast_neg, abs_neg, abs_neg]
  exact nearest.tie (mirrored ▸ tie)

theorem mono (nearest : IsNearest q n) (nearest' : IsNearest q' n') (le : q ≤ q') : n ≤ n' := by
  by_contra! less
  have apart : (n' : ℚ) + 1 ≤ n := by exact_mod_cast less
  obtain ⟨_, low⟩ := abs_le.1 nearest.near
  obtain ⟨high, _⟩ := abs_le.1 nearest'.near
  -- There is only room for both halfway between them, where they cannot both be further from zero.
  have half : (n : ℚ) = q + 1 / 2 := by linarith
  have half' : (n' : ℚ) = q - 1 / 2 := by linarith
  have same : q' = q := by linarith
  have further := nearest.tie (by rw [half, add_sub_cancel_left]; norm_num)
  have further' := nearest'.tie (by rw [half', same, sub_sub_cancel_left]; norm_num)
  rw [half] at further
  rw [half', same] at further'
  have between : -1 < 2 * q ∧ 2 * q < 1 := by
    constructor <;> grind
  have whole : 2 * q = ((2 * n - 1 : ℤ) : ℚ) := by
    push_cast
    linarith
  rw [whole] at between
  have strict : -1 < 2 * n - 1 ∧ 2 * n - 1 < 1 := by exact_mod_cast between
  omega

theorem unique (nearest : IsNearest q n) (nearest' : IsNearest q n') : n = n' :=
  le_antisymm (nearest.mono nearest' le_rfl) (nearest'.mono nearest le_rfl)

theorem zero : IsNearest 0 0 := ⟨by norm_num, by norm_num⟩

end IsNearest

theorem isNearest_roundAway (q : ℚ) : IsNearest q (roundAway q) := by
  have up {q : ℚ} (sign : 0 ≤ q) : IsNearest q (roundAway q) := by
    rw [roundAway, if_pos sign]
    have low := Int.floor_le (q + 1 / 2)
    have high := Int.lt_floor_add_one (q + 1 / 2)
    refine ⟨abs_le.2 ⟨by linarith, by linarith⟩, fun tie => ?_⟩
    have half : ((⌊q + 1 / 2⌋ : ℤ) : ℚ) = q + 1 / 2 := by
      rcases eq_or_eq_neg_of_abs_eq tie with tie | tie <;> linarith
    rw [half, abs_of_nonneg sign, abs_of_nonneg (by linarith)]
    linarith
  rcases le_total 0 q with sign | sign
  · exact up sign
  · have mirrored := (up (neg_nonneg.2 sign)).neg
    rwa [roundAway_neg, neg_neg, neg_neg] at mirrored

/-! ## Room -/

namespace Decimal

/-- All on the way from `m` to `m * 10 ^ k` are words: the power of ten, and the product with it or,
where digits are dropped, the number half a unit further from zero. -/
structure HasRoom (m k : ℤ) : Prop where
  power : 10 ^ k.natAbs < 2 ^ 63
  product : 0 ≤ k → -2 ^ 63 ≤ m * 10 ^ k.natAbs ∧ m * 10 ^ k.natAbs < 2 ^ 63
  above : k < 0 → 0 ≤ m → m + 10 ^ k.natAbs / 2 < 2 ^ 63
  below : k < 0 → m < 0 → -2 ^ 63 ≤ m - 10 ^ k.natAbs / 2

theorem word?_isSome_iff {n : ℤ} : (word? n).isSome ↔ -2 ^ 63 ≤ n ∧ n < 2 ^ 63 := by
  unfold word?
  split <;> simp_all

theorem pow_ten_lt_iff {k : ℕ} : 10 ^ k < 2 ^ 63 ↔ k ≤ 18 := by
  constructor
  · intro small
    by_contra! many
    have := Nat.pow_le_pow_right (show 0 < 10 by decide) (Nat.succ_le_of_lt many)
    omega
  · intro few
    exact (Nat.pow_le_pow_right (by decide) few).trans_lt (by decide)

theorem rescale_isSome_iff {m : Int64} {k : ℤ} : (rescale m k).isSome ↔ HasRoom m.toInt k := by
  unfold rescale tenTo?
  split
  next few =>
    have power := pow_ten_lt_iff.2 few
    simp only [bind, Option.bind_some]
    split
    next raised =>
      rw [word?_isSome_iff]
      push_cast
      exact ⟨fun inside => ⟨power, fun _ => inside, by omega, by omega⟩, fun room => room.product raised⟩
    next lowered =>
      have low := m.le_toInt
      have high := m.toInt_lt
      simp only [Option.isSome_bind, pure, Option.isSome_some, Option.any_true, word?_isSome_iff]
      push_cast
      constructor
      · intro inside
        refine ⟨power, by omega, fun _ positive => ?_, fun _ negative => ?_⟩
        · rw [if_pos positive] at inside
          exact inside.2
        · rw [if_neg (by omega)] at inside
          exact inside.1
      · intro room
        have half : (0 : ℤ) ≤ 10 ^ k.natAbs / 2 := Int.ediv_nonneg (by positivity) (by decide)
        split
        next positive => exact ⟨by omega, room.above (by omega) positive⟩
        next negative => exact ⟨room.below (by omega) (by omega), by omega⟩
  next many =>
    simp only [bind, Option.bind_none, Option.isSome_none, Bool.false_eq_true, false_iff]
    exact fun room => many (pow_ten_lt_iff.1 room.power)

theorem rescale_of_product {m r : Int64} {k : ℕ} (few : k ≤ 18)
    (product : r.toInt = m.toInt * 10 ^ k) : rescale m k = some r := by
  have found : word? (m.toInt * (10 ^ k : ℕ)) = some r := by
    rw [word?_eq_some_iff, product]
    push_cast
    rfl
  simp only [rescale, tenTo?, Int.natAbs_natCast, if_pos few, bind, Option.bind_some,
    if_pos (Int.natCast_nonneg k), found]

theorem isNearest_rescale {m r : Int64} {k : ℤ} (found : rescale m k = some r) :
    IsNearest (m.toInt * 10 ^ k) r.toInt :=
  toInt_rescale found ▸ isNearest_roundAway _

theorem rescale_raised {m r : Int64} {k : ℤ} (raised : 0 ≤ k) (found : rescale m k = some r) :
    r.toInt = m.toInt * 10 ^ k.toNat := by
  obtain ⟨places, rfl⟩ := Int.eq_ofNat_of_zero_le raised
  have whole : (m.toInt : ℚ) * 10 ^ (places : ℤ) = ((m.toInt * 10 ^ places : ℤ) : ℚ) := by simp
  rw [toInt_rescale found, whole, roundAway_intCast]
  rfl

end Decimal

/-! ## Scaling -/

namespace Value

inductive HasParts : Value → (m : Int64) → (e : ℤ) → Prop where
  | decimal {m e} : HasParts (.decimal m e) m e.toInt
  | integer {m} : HasParts (.integer m) m 0

structure IsScaling (scaled : Value → ℤ → Option Int64) : Prop where
  found_iff : ∀ {v m e} s, HasParts v m e → ((scaled v s).isSome ↔ Decimal.HasRoom m.toInt (s + e))
  raised : ∀ {v m e s r}, HasParts v m e → scaled v s = some r → 0 ≤ s + e →
    r.toInt = m.toInt * 10 ^ (s + e).toNat
  nearest : ∀ {v m e s r}, HasParts v m e → scaled v s = some r →
    IsNearest (m.toInt * 10 ^ (s + e)) r.toInt
  nonneg : ∀ {v m e s r}, HasParts v m e → scaled v s = some r → 0 ≤ m.toInt → 0 ≤ r.toInt
  nonpos : ∀ {v m e s r}, HasParts v m e → scaled v s = some r → m.toInt ≤ 0 → r.toInt ≤ 0
  mono : ∀ {v v' m m' e s r r'}, HasParts v m e → HasParts v' m' e → scaled v s = some r →
    scaled v' s = some r' → m.toInt ≤ m'.toInt → r.toInt ≤ r'.toInt
  odd : ∀ {v v' m m' e s r r'}, HasParts v m e → HasParts v' m' e → scaled v s = some r →
    scaled v' s = some r' → m'.toInt = -m.toInt → r'.toInt = -r.toInt

variable {v : Value} {m : Int64} {e : ℤ}

theorem HasParts.scaled (parts : HasParts v m e) (s : ℤ) :
    v.scaled s = Decimal.rescale m (s + e) := by
  cases parts with
  | decimal => rfl
  | integer => rw [Int.add_zero, Value.scaled]

theorem HasParts.number?_eq (parts : HasParts v m e) :
    v.number? = some ((m.toInt : ℚ) * 10 ^ e) := by
  cases parts with
  | decimal => rfl
  | integer => rw [number?, zpow_zero, mul_one]

theorem unit_nonneg (k : ℤ) : (0 : ℚ) ≤ 10 ^ k := zpow_nonneg (by norm_num) k

theorem isScaling_scaled : IsScaling scaled where
  found_iff s parts := by rw [parts.scaled, Decimal.rescale_isSome_iff]
  raised parts found raised := Decimal.rescale_raised raised (parts.scaled _ ▸ found)
  nearest parts found := Decimal.isNearest_rescale (parts.scaled _ ▸ found)
  nonneg parts found sign := by
    refine IsNearest.zero.mono (Decimal.isNearest_rescale (parts.scaled _ ▸ found)) ?_
    exact mul_nonneg (by exact_mod_cast sign) (unit_nonneg _)
  nonpos parts found sign := by
    refine (Decimal.isNearest_rescale (parts.scaled _ ▸ found)).mono IsNearest.zero ?_
    exact mul_nonpos_of_nonpos_of_nonneg (by exact_mod_cast sign) (unit_nonneg _)
  mono parts parts' found found' le := by
    have nearest := Decimal.isNearest_rescale (parts.scaled _ ▸ found)
    refine nearest.mono (Decimal.isNearest_rescale (parts'.scaled _ ▸ found')) ?_
    exact mul_le_mul_of_nonneg_right (by exact_mod_cast le) (unit_nonneg _)
  odd parts parts' found found' negated := by
    have nearest := Decimal.isNearest_rescale (parts.scaled _ ▸ found)
    have nearest' := Decimal.isNearest_rescale (parts'.scaled _ ▸ found')
    rw [negated, Int.cast_neg, neg_mul] at nearest'
    exact nearest'.unique nearest.neg

end Value

end Bufr
