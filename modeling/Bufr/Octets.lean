import Bufr.Error

/-!
Octets in a row, numbers in them with the most significant octet first, and a cursor that reads them
from the front.
-/

namespace Bufr

abbrev Octets := List UInt8

namespace Octets

def toNat (octets : Octets) : Nat := octets.foldl (fun n octet => 256 * n + octet.toNat) 0

def ofNat : Nat → Nat → Octets
  | 0, _ => []
  | count + 1, n => .ofNat (n / 256 ^ count) :: ofNat count n

def ofText (text : String) : Octets := text.toUTF8.data.toList

theorem foldl_toNat (octets : Octets) (n : Nat) :
    octets.foldl (fun n octet => 256 * n + octet.toNat) n =
      n * 256 ^ octets.length + toNat octets := by
  induction octets generalizing n with
  | nil => simp [toNat]
  | cons octet octets ih =>
    have tail := ih (256 * 0 + octet.toNat)
    simp only [toNat, List.foldl_cons, List.length_cons] at *
    rw [ih, tail, Nat.pow_succ, Nat.mul_zero, Nat.zero_add, Nat.add_mul, Nat.mul_comm 256 n,
      Nat.mul_assoc, Nat.mul_comm 256, Nat.add_assoc]

theorem toNat_cons (octet : UInt8) (octets : Octets) :
    toNat (octet :: octets) = octet.toNat * 256 ^ octets.length + toNat octets :=
  (foldl_toNat octets (256 * 0 + octet.toNat)).trans (by rw [Nat.mul_zero, Nat.zero_add])

@[simp] theorem length_ofNat (count n : Nat) : (ofNat count n).length = count := by
  induction count with
  | zero => rfl
  | succ count ih => simp [ofNat, ih]

theorem toNat_ofNat (count n : Nat) : toNat (ofNat count n) = n % 256 ^ count := by
  induction count with
  | zero => simp [ofNat, toNat, Nat.mod_one]
  | succ count ih =>
    rw [ofNat, toNat_cons, ih, length_ofNat, Nat.mod_pow_succ, UInt8.toNat_ofNat', Nat.mul_comm,
      Nat.add_comm]

theorem toNat_lt (octets : Octets) : toNat octets < 256 ^ octets.length := by
  induction octets with
  | nil => decide
  | cons octet octets ih =>
    have := octet.toNat_lt
    have := Nat.mul_le_mul_right (256 ^ octets.length) (show octet.toNat ≤ 255 by omega)
    rw [toNat_cons, List.length_cons, Nat.pow_succ]
    omega

end Octets

abbrev Input := StateT Octets (Except Error)

namespace Input

def octets (count : Nat) : Input Octets := fun input =>
  let (taken, rest) := input.splitAt count
  if taken.length < count then .error .endOfInput else .ok (taken, rest)

def number (count : Nat) : Input Nat := do return Octets.toNat (← octets count)

def octet : Input UInt8 := do return .ofNat (← number 1)

def word : Input UInt16 := do return .ofNat (← number 2)

def length : Input Nat := number 3

def descriptor : Input Descriptor := do return .ofCode (← word)

/-- As many descriptors as asked for; those read so far come in reverse in `done`. -/
def descriptorsOnto (done : List Descriptor) : Nat → Input (List Descriptor)
  | 0 => return done.reverse
  | count + 1 => do
    let d ← descriptor
    descriptorsOnto (d :: done) count

def descriptors (count : Nat) : Input (List Descriptor) := descriptorsOnto [] count

theorem octets_eq_ok_iff {count : Nat} {input taken rest : Octets} :
    octets count input = .ok (taken, rest) ↔ taken.length = count ∧ taken ++ rest = input := by
  simp only [octets, List.splitAt_eq, List.length_take]
  split
  case isTrue short =>
    constructor
    · intro impossible; cases impossible
    · intro ⟨long, same⟩
      have := congrArg List.length same
      rw [List.length_append] at this
      omega
  case isFalse =>
    simp only [Except.ok.injEq, Prod.mk.injEq]
    constructor
    · intro ⟨front, back⟩
      rw [← front, ← back, List.length_take, List.take_append_drop]
      exact ⟨by omega, rfl⟩
    · intro ⟨long, same⟩
      rw [← same, ← long]
      simp

theorem number_ofNat_append {count n : Nat} (h : n < 256 ^ count) (rest : Octets) :
    number count (Octets.ofNat count n ++ rest) = .ok (n, rest) := by
  have front : octets count (Octets.ofNat count n ++ rest) = .ok (Octets.ofNat count n, rest) :=
    octets_eq_ok_iff.2 ⟨Octets.length_ofNat count n, rfl⟩
  simp only [number, bind, StateT.bind, front, Except.bind]
  rw [Octets.toNat_ofNat, Nat.mod_eq_of_lt h]
  rfl

end Input

namespace Octets

def ofWord (word : UInt16) : Octets := ofNat 2 word.toNat

def ofDescriptor (d : Descriptor) : Octets := ofWord d.code

def maxLength : Nat := 0xffffff

def ofLength (length : Nat) : Except Error Octets :=
  if maxLength < length then .error (.longSection length) else .ok (ofNat 3 length)

end Octets

end Bufr
