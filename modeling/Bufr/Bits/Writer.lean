import Bufr.Bits

/-!
Bit fields written one after the other. What does not fit its field is refused and never cut.
-/

namespace Bufr.Bits

structure Writer where
  /-- The full octets, the last one first. -/
  done : Octets
  /-- The last `count` bits, short of an octet, as a number. -/
  pending : Nat
  count : Nat
  count_lt : count < 8

namespace Writer

def empty : Writer := ⟨[], 0, 0, by decide⟩

def written (w : Writer) : Nat := 8 * w.done.length + w.count

def bits (w : Writer) : Bits := Bits.ofOctets w.done.reverse ++ Bits.ofNat w.count w.pending

def pushBit (w : Writer) (bit : Bool) : Writer :=
  let pending := 2 * w.pending + bit.toNat
  if h : w.count = 7 then
    ⟨.ofNat pending :: w.done, 0, 0, by decide⟩
  else
    ⟨w.done, pending, w.count + 1, by have := w.count_lt; omega⟩

def pushNumber (w : Writer) : (width n : Nat) → Writer
  | 0, _ => w
  | width + 1, n => (w.pushBit (n.testBit width)).pushNumber width n

def pushOctets (w : Writer) (octets : Octets) : Writer :=
  octets.foldl (fun w octet => w.pushNumber 8 octet.toNat) w

def number (w : Writer) (width n : Nat) : Except Error Writer :=
  if 64 < width then .error (.unwritableWidth width)
  else if missing width < n then .error (.overflow n width)
  else .ok (w.pushNumber width n)

/-- No number is written as all ones, so a number that equals them does not fit. -/
def number? (w : Writer) (width : Nat) : Option Nat → Except Error Writer
  | none => w.number width (missing width)
  | some n => if 0 < width ∧ missing width ≤ n then .error (.overflow n width) else w.number width n

def signed (w : Writer) (width : Nat) (n : Int) : Except Error Writer :=
  if width < 2 then .error (.narrowSigned width)
  else if missing (width - 1) < n.natAbs then .error (.signedOverflow n width)
  else w.number width (if n < 0 then 2 ^ (width - 1) + n.natAbs else n.natAbs)

/-- No collection has more octets. -/
def maxCapacity : Nat := 2 ^ 63 - 1

def text (w : Writer) (length : Nat) (octets : Octets) : Except Error Writer :=
  if maxCapacity < length then .error .capacity
  else
    let taken := octets.take length
    .ok (w.pushOctets (taken ++ List.replicate (length - taken.length) 0x20))

def missingText (w : Writer) (length : Nat) : Writer :=
  w.pushOctets (List.replicate length 0xff)

def finish (w : Writer) : Octets :=
  if w.count = 0 then w.done.reverse else (w.pushNumber (8 - w.count) 0).done.reverse

/-! ## What each step appends -/

@[simp] theorem bits_empty : empty.bits = [] := rfl

@[simp] theorem length_bits (w : Writer) : w.bits.length = w.written := by
  simp [bits, written]

@[simp] theorem bits_pushBit (w : Writer) (bit : Bool) : (w.pushBit bit).bits = w.bits ++ [bit] := by
  unfold pushBit bits
  split
  case isTrue full =>
    rw [full]
    simp only [List.reverse_cons, Bits.ofOctets_append, Bits.ofOctets_cons, UInt8.toNat_ofNat']
    rw [Bits.ofNat_mod, Bits.ofNat_two_mul_add]
    simp [Bits.ofNat]
  case isFalse => simp [Bits.ofNat_two_mul_add]

@[simp] theorem bits_pushNumber (w : Writer) (width n : Nat) :
    (w.pushNumber width n).bits = w.bits ++ Bits.ofNat width n := by
  induction width generalizing w with
  | zero => simp [pushNumber, Bits.ofNat]
  | succ width ih => simp [pushNumber, Bits.ofNat, ih]

theorem count_pushNumber (w : Writer) (width n : Nat) :
    (w.pushNumber width n).count = (w.count + width) % 8 := by
  induction width generalizing w with
  | zero => exact (Nat.mod_eq_of_lt w.count_lt).symm
  | succ width ih =>
    rw [pushNumber, ih]
    unfold pushBit
    split <;> simp <;> omega

theorem ofOctets_finish (w : Writer) :
    Bits.ofOctets w.finish = w.bits ++ List.replicate ((8 - w.count) % 8) false := by
  unfold finish
  split
  case isTrue whole => simp [bits, whole, Bits.ofNat]
  case isFalse partly =>
    have := w.count_lt
    have whole := count_pushNumber w (8 - w.count) 0
    rw [show (w.count + (8 - w.count)) % 8 = 0 by omega] at whole
    have filled := bits_pushNumber w (8 - w.count) 0
    rw [bits, whole] at filled
    rw [show (8 - w.count) % 8 = 8 - w.count by omega, ← Bits.ofNat_zero, ← filled]
    simp [Bits.ofNat]

end Writer

end Bufr.Bits
