import Bufr.Octets

/-!
Strings of bits, the most significant first. They are what readers and writers of bit fields are
about: a reader walks along one, a writer makes one longer.
-/

namespace Bufr

abbrev Bits := List Bool

namespace Bits

def toNat (bits : Bits) : Nat := bits.foldl (fun n bit => 2 * n + bit.toNat) 0

def ofNat : Nat → Nat → Bits
  | 0, _ => []
  | width + 1, n => n.testBit width :: ofNat width n

def ofOctets (octets : Octets) : Bits := octets.flatMap fun octet => ofNat 8 octet.toNat

/-- All ones in the given width, the mark of a missing number. Fields have at most 64 bits. -/
def missing (width : Nat) : Nat := 2 ^ min width 64 - 1

theorem foldl_toNat (bits : Bits) (n : Nat) :
    bits.foldl (fun n bit => 2 * n + bit.toNat) n = n * 2 ^ bits.length + toNat bits := by
  induction bits generalizing n with
  | nil => simp [toNat]
  | cons bit bits ih =>
    have tail := ih (2 * 0 + bit.toNat)
    simp only [toNat, List.foldl_cons, List.length_cons] at *
    rw [ih, tail, Nat.pow_succ, Nat.mul_zero, Nat.zero_add, Nat.add_mul, Nat.mul_comm 2 n,
      Nat.mul_assoc, Nat.mul_comm 2, Nat.add_assoc]

@[simp] theorem toNat_nil : toNat [] = 0 := rfl

theorem toNat_cons (bit : Bool) (bits : Bits) :
    toNat (bit :: bits) = bit.toNat * 2 ^ bits.length + toNat bits :=
  (foldl_toNat bits (2 * 0 + bit.toNat)).trans (by rw [Nat.mul_zero, Nat.zero_add])

@[simp] theorem length_ofNat (width n : Nat) : (ofNat width n).length = width := by
  induction width with
  | zero => rfl
  | succ width ih => simp [ofNat, ih]

theorem toNat_ofNat (width n : Nat) : toNat (ofNat width n) = n % 2 ^ width := by
  induction width with
  | zero => simp [ofNat, Nat.mod_one]
  | succ width ih =>
    rw [ofNat, toNat_cons, ih, length_ofNat, Nat.toNat_testBit, Nat.mod_pow_succ,
      Nat.mul_comm, Nat.add_comm]

theorem toNat_lt (bits : Bits) : toNat bits < 2 ^ bits.length := by
  induction bits with
  | nil => simp
  | cons bit bits ih =>
    rw [toNat_cons, List.length_cons, Nat.pow_succ]
    cases bit <;> simp <;> omega

theorem ofNat_mod (width n : Nat) : ofNat width (n % 2 ^ width) = ofNat width n := by
  suffices below : ∀ low, low ≤ width → ofNat low (n % 2 ^ width) = ofNat low n from
    below width (Nat.le_refl _)
  intro low
  induction low with
  | zero => intro _; rfl
  | succ low ih =>
    intro inside
    rw [ofNat, ofNat, ih (by omega), Nat.testBit_mod_two_pow]
    simp [show low < width from inside]

theorem ofNat_toNat (bits : Bits) : ofNat bits.length (toNat bits) = bits := by
  induction bits with
  | nil => rfl
  | cons bit bits ih =>
    have := toNat_lt bits
    rw [List.length_cons, ofNat, toNat_cons, Nat.mul_comm, ← ofNat_mod, Nat.mul_add_mod,
      Nat.mod_eq_of_lt this, ih, Nat.testBit_two_pow_mul_add _ this]
    cases bit <;> simp

theorem ofNat_two_mul_add (width n : Nat) (bit : Bool) :
    ofNat (width + 1) (2 * n + bit.toNat) = ofNat width n ++ [bit] := by
  have := bit.toNat_lt
  induction width with
  | zero =>
    rw [ofNat, ofNat, ofNat, Nat.testBit_zero, Nat.mul_add_mod, Nat.mod_eq_of_lt this]
    cases bit <;> rfl
  | succ width ih =>
    rw [ofNat, ih, ofNat, List.cons_append, Nat.testBit_succ,
      show (2 * n + bit.toNat) / 2 = n by omega]

theorem ofNat_zero (width : Nat) : ofNat width 0 = List.replicate width false := by
  induction width with
  | zero => rfl
  | succ width ih => simp [ofNat, ih, List.replicate_succ]

theorem getElem?_ofNat (width n index : Nat) :
    (ofNat width n)[index]? =
      if index < width then some (n.testBit (width - 1 - index)) else none := by
  induction width generalizing index with
  | zero => rfl
  | succ width ih =>
    cases index with
    | zero => simp [ofNat]
    | succ index =>
      rw [ofNat, List.getElem?_cons_succ, ih,
        show width + 1 - 1 - (index + 1) = width - 1 - index by omega]
      simp

@[simp] theorem ofOctets_nil : ofOctets [] = [] := rfl

@[simp] theorem ofOctets_cons (octet : UInt8) (octets : Octets) :
    ofOctets (octet :: octets) = ofNat 8 octet.toNat ++ ofOctets octets := rfl

@[simp] theorem ofOctets_append (front back : Octets) :
    ofOctets (front ++ back) = ofOctets front ++ ofOctets back :=
  List.flatMap_append

@[simp] theorem length_ofOctets (octets : Octets) :
    (ofOctets octets).length = 8 * octets.length := by
  induction octets with
  | nil => rfl
  | cons octet octets ih => simp [ih]; omega

theorem ofOctets_inj {octets octets' : Octets} :
    ofOctets octets = ofOctets octets' ↔ octets = octets' := by
  refine ⟨?_, congrArg _⟩
  intro same
  induction octets generalizing octets' with
  | nil =>
    cases octets' with
    | nil => rfl
    | cons => cases congrArg List.length same
  | cons octet octets ih =>
    cases octets' with
    | nil => cases congrArg List.length same
    | cons octet' octets' =>
      have both := List.append_inj same (by simp)
      have first := congrArg toNat both.1
      have := octet.toNat_lt
      have := octet'.toNat_lt
      rw [toNat_ofNat, toNat_ofNat, Nat.mod_eq_of_lt (by omega), Nat.mod_eq_of_lt (by omega)] at first
      rw [UInt8.toNat_inj.1 first, ih both.2]

theorem getElem?_ofOctets (octets : Octets) (index : Nat) :
    (ofOctets octets)[index]? =
      octets[index / 8]?.map fun octet => octet.toNat.testBit (7 - index % 8) := by
  induction octets generalizing index with
  | nil => rfl
  | cons octet octets ih =>
    rw [ofOctets_cons, List.getElem?_append]
    simp only [length_ofNat]
    split
    case isTrue inside =>
      rw [getElem?_ofNat, Nat.div_eq_of_lt inside, Nat.mod_eq_of_lt inside]
      simp [inside]
    case isFalse outside =>
      rw [ih, show index / 8 = (index - 8) / 8 + 1 by omega, List.getElem?_cons_succ,
        show (index - 8) % 8 = index % 8 by omega]

end Bits

end Bufr
