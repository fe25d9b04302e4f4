import Bufr.Bits

/-!
The numbers that a string of bits stands for, and the bits of a number. All ones are no number, and
a signed number is a sign and a magnitude.
-/

namespace Bufr.Bits

def number? (x : Bits) : Option Nat :=
  if 0 < x.length ∧ toNat x = missing x.length then none else some (toNat x)

def ofNumber? (width : Nat) (n? : Option Nat) : Bits := ofNat width (n?.getD (missing width))

def signed : Bits → Int
  | [] => 0
  | sign :: magnitude => if sign then -(toNat magnitude) else toNat magnitude

def ofSigned (width : Nat) (n : Int) : Bits := decide (n < 0) :: ofNat (width - 1) n.natAbs

/-- No present number takes the bits of a missing one. -/
def Fits (width : Nat) (n? : Option Nat) : Prop :=
  ∀ n, n? = some n → n ≤ missing width ∧ (0 < width → n ≠ missing width)

theorem missing_eq {width : Nat} (narrow : width ≤ 64) : missing width = 2 ^ width - 1 := by
  rw [missing, Nat.min_eq_left narrow]

theorem missing_lt {width : Nat} (narrow : width ≤ 64) : missing width < 2 ^ width := by
  have := Nat.two_pow_pos width
  rw [missing_eq narrow]
  omega

theorem toNat_le_missing {x : Bits} (narrow : x.length ≤ 64) : toNat x ≤ missing x.length := by
  have := toNat_lt x
  rw [missing_eq narrow]
  omega

theorem ofNat_missing {width : Nat} (narrow : width ≤ 64) :
    ofNat width (missing width) = List.replicate width true := by
  have all : toNat (List.replicate width true) = missing width := by
    rw [missing_eq narrow]
    clear narrow
    induction width with
    | zero => rfl
    | succ width ih =>
        rw [List.replicate_succ, toNat_cons, ih, List.length_replicate, Bool.toNat_true,
          Nat.pow_succ]
        have := Nat.two_pow_pos width
        omega
  have same := ofNat_toNat (List.replicate width true)
  rwa [List.length_replicate, all] at same

@[simp] theorem length_ofNumber? (width : Nat) (n? : Option Nat) :
    (ofNumber? width n?).length = width := length_ofNat _ _

theorem toNat_ofNat_of_le {width n : Nat} (narrow : width ≤ 64) (fits : n ≤ missing width) :
    toNat (ofNat width n) = n := by
  have := missing_lt narrow
  rw [toNat_ofNat, Nat.mod_eq_of_lt (by omega)]

theorem number?_ofNumber? {width : Nat} {n? : Option Nat} (narrow : width ≤ 64)
    (positive : 0 < width) (fits : Fits width n?) : number? (ofNumber? width n?) = n? := by
  unfold number?
  rw [length_ofNumber?]
  cases n? with
  | none =>
      rw [if_pos ⟨positive, toNat_ofNat_of_le narrow (Nat.le_refl _)⟩]
  | some n =>
      obtain ⟨le, ne⟩ := fits n rfl
      have same : toNat (ofNumber? width (some n)) = n := toNat_ofNat_of_le narrow le
      rw [same, if_neg fun all => ne positive all.2]

theorem ofNumber?_number? (x : Bits) : ofNumber? x.length (number? x) = x := by
  unfold number? ofNumber?
  split
  case isTrue all => rw [Option.getD_none, ← all.2, ofNat_toNat]
  case isFalse => rw [Option.getD_some, ofNat_toNat]

theorem fits_number? {x : Bits} (narrow : x.length ≤ 64) : Fits x.length (number? x) := by
  intro n read
  unfold number? at read
  split at read
  · cases read
  next present =>
    cases read
    exact ⟨toNat_le_missing narrow, fun positive all => present ⟨positive, all⟩⟩

theorem length_ofSigned {width : Nat} (n : Int) (wide : 2 ≤ width) :
    (ofSigned width n).length = width := by
  simp only [ofSigned, List.length_cons, length_ofNat]
  omega

theorem signed_ofSigned {width : Nat} {n : Int} (narrow : width ≤ 64)
    (fits : n.natAbs ≤ missing (width - 1)) : signed (ofSigned width n) = n := by
  have same := toNat_ofNat_of_le (show width - 1 ≤ 64 by omega) fits
  simp only [ofSigned, signed, same, decide_eq_true_eq]
  split <;> omega

theorem natAbs_signed_le {x : Bits} (narrow : x.length ≤ 64) :
    (signed x).natAbs ≤ missing (x.length - 1) := by
  cases x with
  | nil => exact Nat.zero_le _
  | cons sign magnitude =>
      have := toNat_le_missing (x := magnitude) (by simp only [List.length_cons] at narrow; omega)
      simp only [signed, List.length_cons, Nat.add_sub_cancel]
      cases sign <;> simpa using this

theorem toNat_cons_mod (sign : Bool) (magnitude : Bits) :
    toNat (sign :: magnitude) % 2 ^ magnitude.length = toNat magnitude := by
  rw [toNat_cons, Nat.mul_comm, Nat.mul_add_mod, Nat.mod_eq_of_lt (toNat_lt magnitude)]

theorem testBit_toNat_cons (sign : Bool) (magnitude : Bits) :
    (toNat (sign :: magnitude)).testBit magnitude.length = sign := by
  rw [toNat_cons, Nat.mul_comm, Nat.testBit_two_pow_mul_add _ (toNat_lt magnitude)]
  cases sign <;> simp

end Bufr.Bits
