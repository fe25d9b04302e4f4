import Bufr.Bits

/-!
A cursor over the bits of some octets. A read that fails leaves the cursor where it was, since the
next cursor comes only with a result.
-/

namespace Bufr.Bits

structure Reader where
  octets : Array UInt8
  position : Nat
  position_le : position ≤ 8 * octets.size

namespace Reader

def ofOctets (octets : Octets) : Reader := ⟨octets.toArray, 0, Nat.zero_le _⟩

def size (r : Reader) : Nat := 8 * r.octets.size

def remaining (r : Reader) : Nat := r.size - r.position

/-- The bit at an index, the most significant of an octet first. -/
def bitAt (r : Reader) (index : Nat) (h : index < 8 * r.octets.size) : Bool :=
  have inside : index / 8 < r.octets.size := by omega
  r.octets[index / 8].toNat.testBit (7 - index % 8)

def all (r : Reader) : Bits := Bits.ofOctets r.octets.toList

def rest (r : Reader) : Bits := r.all.drop r.position

def numberFrom (r : Reader) (index : Nat) : (width n : Nat) → (h : index + width ≤ 8 * r.octets.size) → Nat
  | 0, n, _ => n
  | width + 1, n, h =>
    numberFrom r (index + 1) width (2 * n + (r.bitAt index (by omega)).toNat) (by omega)

def octetsFrom (r : Reader) (index : Nat) :
    (count : Nat) → (done : Octets) → (h : index + 8 * count ≤ 8 * r.octets.size) → Octets
  | 0, done, _ => done.reverse
  | count + 1, done, h =>
    octetsFrom r (index + 8) count (.ofNat (r.numberFrom index 8 0 (by omega)) :: done) (by omega)

def bits (r : Reader) (width : Nat) : Except Error (Nat × Reader) :=
  if width = 0 then .ok (0, r)
  else if 64 < width then .error (.unreadableWidth width)
  else if h : r.position + width ≤ 8 * r.octets.size then
    .ok (r.numberFrom r.position width 0 h, { r with position := r.position + width, position_le := h })
  else .error (.truncatedBits width r.position r.remaining)

/-- All ones mean that there is no number. -/
def number (r : Reader) (width : Nat) : Except Error (Option Nat × Reader) := do
  let (n, r) ← r.bits width
  return (if 0 < width ∧ n = missing width then none else some n, r)

def signed (r : Reader) (width : Nat) : Except Error (Int × Reader) :=
  if width < 2 then .error (.narrowSigned width)
  else do
    let (n, r) ← r.bits width
    let magnitude := n % 2 ^ (width - 1)
    return (if n.testBit (width - 1) then -magnitude else magnitude, r)

def text (r : Reader) (count : Nat) : Except Error (Octets × Reader) :=
  if h : r.position + 8 * count ≤ 8 * r.octets.size then
    .ok (r.octetsFrom r.position count [] h,
      { r with position := r.position + 8 * count, position_le := h })
  else .error (.truncatedBits (8 * count) r.position r.remaining)

/-! ## What each read takes from the bits -/

@[simp] theorem length_all (r : Reader) : r.all.length = r.size := by simp [all, size]

@[simp] theorem length_rest (r : Reader) : r.rest.length = r.remaining := by
  simp [rest, remaining]

theorem drop_all (r : Reader) {index : Nat} (h : index < 8 * r.octets.size) :
    r.all.drop index = r.bitAt index h :: r.all.drop (index + 1) := by
  have inside : index < r.all.length := by rwa [length_all]
  rw [List.drop_eq_getElem_cons inside]
  congr 1
  apply Option.some.inj
  rw [← List.getElem?_eq_getElem inside, all, Bits.getElem?_ofOctets]
  simp [bitAt, show index / 8 < r.octets.size by omega]

theorem numberFrom_eq (r : Reader) (index width n : Nat) (h : index + width ≤ 8 * r.octets.size) :
    r.numberFrom index width n h = n * 2 ^ width + toNat ((r.all.drop index).take width) := by
  induction width generalizing index n with
  | zero => simp [numberFrom]
  | succ width ih =>
    have long : ((r.all.drop (index + 1)).take width).length = width := by
      rw [List.length_take, List.length_drop, length_all, size]
      omega
    rw [numberFrom, ih, drop_all r (show index < _ by omega), List.take_succ_cons, toNat_cons, long,
      Nat.pow_succ, Nat.add_mul, Nat.mul_comm 2 n, Nat.mul_assoc, Nat.mul_comm 2, Nat.add_assoc]

theorem ofOctets_octetsFrom (r : Reader) (index count : Nat) (done : Octets)
    (h : index + 8 * count ≤ 8 * r.octets.size) :
    Bits.ofOctets (r.octetsFrom index count done h) =
      Bits.ofOctets done.reverse ++ (r.all.drop index).take (8 * count) := by
  induction count generalizing index done with
  | zero => simp [octetsFrom]
  | succ count ih =>
    have long : ((r.all.drop index).take 8).length = 8 := by
      rw [List.length_take, List.length_drop, length_all, size]
      omega
    have small := toNat_lt ((r.all.drop index).take 8)
    have same := ofNat_toNat ((r.all.drop index).take 8)
    rw [long] at small same
    rw [octetsFrom, ih, numberFrom_eq, show 8 * (count + 1) = 8 + 8 * count by omega, List.take_add,
      List.reverse_cons, Bits.ofOctets_append, Bits.ofOctets_cons, Bits.ofOctets_nil,
      UInt8.toNat_ofNat', Nat.zero_mul, Nat.zero_add, Nat.mod_eq_of_lt small, same,
      List.append_nil, List.append_assoc, List.drop_drop]

theorem bits_eq_ok_iff {r r' : Reader} {width n : Nat} :
    r.bits width = .ok (n, r') ↔
      width ≤ 64 ∧ width ≤ r.remaining ∧ toNat (r.rest.take width) = n ∧
        r.octets = r'.octets ∧ r.position + width = r'.position := by
  have := r.position_le
  unfold bits remaining size
  obtain ⟨octets', position', _⟩ := r'
  split
  case isTrue empty =>
    cases r
    simp [empty]
  split
  case isTrue => simp; omega
  split
  case isTrue inside =>
    simp only [Except.ok.injEq, Prod.mk.injEq, mk.injEq, numberFrom_eq, rest, Nat.zero_mul,
      Nat.zero_add]
    exact ⟨fun same => ⟨by omega, by omega, same⟩, fun same => same.2.2⟩
  case isFalse => simp; omega

theorem text_eq_ok_iff {r r' : Reader} {count : Nat} {octets : Octets} :
    r.text count = .ok (octets, r') ↔
      8 * count ≤ r.remaining ∧ Bits.ofOctets octets = r.rest.take (8 * count) ∧
        r.octets = r'.octets ∧ r.position + 8 * count = r'.position := by
  have := r.position_le
  unfold text remaining size
  obtain ⟨octets', position', _⟩ := r'
  split
  case isTrue inside =>
    have view := ofOctets_octetsFrom r r.position count [] inside
    simp only [Except.ok.injEq, Prod.mk.injEq, mk.injEq]
    constructor
    · intro ⟨same, behind⟩
      exact ⟨by omega, same ▸ view, behind⟩
    · intro ⟨_, same, behind⟩
      exact ⟨Bits.ofOctets_inj.1 (view.trans same.symm), behind⟩
  case isFalse => simp; omega

end Reader

end Bufr.Bits
