import Bufr.Bits.Reader
import Bufr.Bits.Writer
import Bufr.Proofs.Bits.Number
import Bufr.Proofs.Outcome
import Mathlib.Data.List.Forall2

/-!
What reading takes and writing adds, as strings of bits. A reader that takes `x` goes over exactly
the bits `x`; a writer that adds `x` has them behind what it had before.
-/

namespace Bufr.Bits

inductive Spelled {α : Type} (spells : α → Bits → Prop) : List α → Bits → Prop where
  | nil : Spelled spells [] []
  | cons {a as x y} (first : spells a x) (more : Spelled spells as y) :
      Spelled spells (a :: as) (x ++ y)

theorem Spelled.imp {α : Type} {spells spells' : α → Bits → Prop} {as : List α} {x : Bits}
    (each : ∀ a x, spells a x → spells' a x) (spelled : Spelled spells as x) :
    Spelled spells' as x := by
  induction spelled with
  | nil => exact .nil
  | cons first _ ih => exact .cons (each _ _ first) ih

theorem Spelled.of_mem {α : Type} {spells : α → Bits → Prop} {a : α} {as : List α} {x : Bits}
    (spelled : Spelled spells as x) (mem : a ∈ as) : ∃ y, spells a y := by
  induction spelled with
  | nil => cases mem
  | cons first _ ih =>
      rcases List.mem_cons.1 mem with rfl | mem
      · exact ⟨_, first⟩
      · exact ih mem

theorem Spelled.split {α : Type} {spells : α → Bits → Prop} {front back : List α} {z : Bits}
    (spelled : Spelled spells (front ++ back) z) :
    ∃ x y, z = x ++ y ∧ Spelled spells front x ∧ Spelled spells back y := by
  induction front generalizing z with
  | nil => exact ⟨[], z, rfl, .nil, spelled⟩
  | cons a front ih =>
      cases spelled with
      | cons first more =>
          obtain ⟨x, y, rfl, spelledFront, spelledBack⟩ := ih more
          exact ⟨_, y, (List.append_assoc ..).symm, .cons first spelledFront, spelledBack⟩

theorem Spelled.of_map {α β : Type} {spells : β → Bits → Prop} {f : α → β} {as : List α} {x : Bits}
    (spelled : Spelled spells (as.map f) x) : Spelled (fun a => spells (f a)) as x := by
  induction as generalizing x with
  | nil =>
      cases spelled
      exact .nil
  | cons a as ih =>
      cases spelled with
      | cons first more => exact .cons first (ih more)

theorem Spelled.exists_related {α β : Type} {spells : α → Bits → Prop} {spells' : β → Bits → Prop}
    {R : α → β → Prop} {as : List α} {x : Bits} (spelled : Spelled spells as x)
    (each : ∀ a ∈ as, ∀ y, spells a y → ∃ b, R a b ∧ spells' b y) :
    ∃ bs, List.Forall₂ R as bs ∧ Spelled spells' bs x := by
  induction spelled with
  | nil => exact ⟨[], .nil, .nil⟩
  | cons first _ ih =>
      obtain ⟨eachFirst, others⟩ := List.forall_mem_cons.1 each
      obtain ⟨b, related, spelledFirst⟩ := eachFirst _ first
      obtain ⟨bs, relatedAll, spelledAll⟩ := ih others
      exact ⟨b :: bs, .cons related relatedAll, .cons spelledFirst spelledAll⟩

theorem exists_spelled {α : Type} {spells : α → Bits → Prop} {as : List α}
    (each : ∀ a ∈ as, ∃ x, spells a x) : ∃ x, Spelled spells as x := by
  induction as with
  | nil => exact ⟨[], .nil⟩
  | cons a as ih =>
      obtain ⟨⟨x, first⟩, others⟩ := List.forall_mem_cons.1 each
      obtain ⟨y, more⟩ := ih others
      exact ⟨x ++ y, .cons first more⟩

namespace Reader

structure Takes (r : Reader) (x : Bits) (r' : Reader) : Prop where
  octets : r'.octets = r.octets
  position : r'.position = r.position + x.length
  rest : r.rest = x ++ r'.rest

theorem rest_eq_drop {r r' : Reader} {count : Nat} (octets : r'.octets = r.octets)
    (position : r'.position = r.position + count) : r'.rest = r.rest.drop count := by
  rw [rest, rest, all, all, octets, position, List.drop_drop]

theorem takes_iff {r r' : Reader} {count : Nat} {x : Bits} :
    (count ≤ r.remaining ∧ x = r.rest.take count ∧ r.octets = r'.octets ∧
      r.position + count = r'.position) ↔ x.length = count ∧ r.Takes x r' := by
  constructor
  · rintro ⟨inside, rfl, octets, position⟩
    have long : (r.rest.take count).length = count := by
      rw [List.length_take, length_rest]
      omega
    refine ⟨long, octets.symm, by rw [long, position], ?_⟩
    rw [rest_eq_drop octets.symm position.symm, List.take_append_drop]
  · rintro ⟨rfl, taken⟩
    have inside : x.length ≤ r.remaining := by
      rw [← length_rest, taken.rest, List.length_append]
      omega
    exact ⟨inside, by rw [taken.rest, List.take_left], taken.octets.symm, taken.position.symm⟩

theorem Takes.refl (r : Reader) : r.Takes [] r := ⟨rfl, rfl, rfl⟩

theorem Takes.trans {r r₁ r' : Reader} {x y : Bits} (front : r.Takes x r₁) (back : r₁.Takes y r') :
    r.Takes (x ++ y) r' where
  octets := back.octets.trans front.octets
  position := by rw [back.position, front.position, List.length_append, Nat.add_assoc]
  rest := by rw [front.rest, back.rest, List.append_assoc]

theorem eq_of_octets_position {r r' : Reader} (octets : r.octets = r'.octets)
    (position : r.position = r'.position) : r = r' := by
  cases r
  cases r'
  cases octets
  cases position
  rfl

theorem Takes.eq_of_nil {r r' : Reader} (h : r.Takes [] r') : r' = r :=
  eq_of_octets_position h.octets h.position

theorem exists_takes {r : Reader} {x y : Bits} (h : r.rest = x ++ y) : ∃ r', r.Takes x r' := by
  have inside : x.length ≤ r.remaining := by
    rw [← length_rest, h, List.length_append]
    omega
  have bound : r.position + x.length ≤ 8 * r.octets.size := by
    have := r.position_le
    simp only [remaining, size] at inside
    omega
  let r' : Reader := { r with position := r.position + x.length, position_le := bound }
  have behind : r'.rest = r.rest.drop x.length := rest_eq_drop rfl rfl
  exact ⟨r', rfl, rfl, by rw [behind, h, List.drop_left]⟩

theorem Takes.split {r r' : Reader} {x y : Bits} (h : r.Takes (x ++ y) r') :
    ∃ r₁, r.Takes x r₁ ∧ r₁.Takes y r' := by
  obtain ⟨r₁, front⟩ := exists_takes (h.rest.trans (List.append_assoc x y r'.rest))
  refine ⟨r₁, front, h.octets.trans front.octets.symm, ?_, ?_⟩
  · rw [h.position, front.position, List.length_append, Nat.add_assoc]
  · have both := h.rest
    rwa [front.rest, List.append_assoc, List.append_cancel_left_eq] at both

theorem rest_ofOctets (octets : Octets) : (ofOctets octets).rest = Bits.ofOctets octets := by
  simp [rest, all, ofOctets]

/-! ## Primitives -/

theorem bits_ok_iff {r r' : Reader} {width n : Nat} :
    r.bits width = .ok (n, r') ↔
      width ≤ 64 ∧ ∃ x : Bits, x.length = width ∧ toNat x = n ∧ r.Takes x r' := by
  rw [bits_eq_ok_iff]
  constructor
  · rintro ⟨narrow, inside, value, octets, position⟩
    obtain ⟨long, taken⟩ := takes_iff.1 ⟨inside, rfl, octets, position⟩
    exact ⟨narrow, _, long, value, taken⟩
  · rintro ⟨narrow, x, long, value, taken⟩
    obtain ⟨inside, same, octets, position⟩ := takes_iff.2 ⟨long, taken⟩
    exact ⟨narrow, inside, same ▸ value, octets, position⟩

theorem number_ok_iff {r r' : Reader} {width : Nat} {n? : Option Nat} :
    r.number width = .ok (n?, r') ↔
      width ≤ 64 ∧ ∃ x : Bits, x.length = width ∧ number? x = n? ∧ r.Takes x r' := by
  simp only [number, bind_eq_ok, Prod.exists, bits_ok_iff, pure_eq_ok, Prod.mk.injEq]
  constructor
  · rintro ⟨n, r₁, ⟨narrow, x, rfl, rfl, taken⟩, value, rfl⟩
    exact ⟨narrow, x, rfl, value, taken⟩
  · rintro ⟨narrow, x, rfl, value, taken⟩
    exact ⟨_, r', ⟨narrow, x, rfl, rfl, taken⟩, value, rfl⟩

theorem signed_ok_iff {r r' : Reader} {width : Nat} {n : Int} :
    r.signed width = .ok (n, r') ↔
      2 ≤ width ∧ width ≤ 64 ∧ ∃ x : Bits, x.length = width ∧ Bits.signed x = n ∧ r.Takes x r' := by
  have value (x : Bits) (wide : 2 ≤ x.length) :
      (if (toNat x).testBit (x.length - 1) then -((toNat x % 2 ^ (x.length - 1) : Nat) : Int)
        else ((toNat x % 2 ^ (x.length - 1) : Nat) : Int)) = Bits.signed x := by
    cases x with
    | nil => simp at wide
    | cons sign magnitude =>
        simp only [List.length_cons, Nat.add_sub_cancel, testBit_toNat_cons, toNat_cons_mod,
          Bits.signed]
  unfold signed
  split
  case isTrue narrow =>
    constructor
    · intro impossible; cases impossible
    · rintro ⟨wide, _⟩; omega
  case isFalse wide =>
    simp only [bind_eq_ok, Prod.exists, bits_ok_iff, pure_eq_ok, Prod.mk.injEq]
    constructor
    · rintro ⟨n', r₁, ⟨narrow, x, rfl, rfl, taken⟩, same, rfl⟩
      exact ⟨by omega, narrow, x, rfl, (value x (by omega)).symm.trans same, taken⟩
    · rintro ⟨_, narrow, x, rfl, same, taken⟩
      exact ⟨_, r', ⟨narrow, x, rfl, rfl, taken⟩, (value x (by omega)).trans same, rfl⟩

theorem text_ok_iff {r r' : Reader} {count : Nat} {octets : Octets} :
    r.text count = .ok (octets, r') ↔
      octets.length = count ∧ r.Takes (Bits.ofOctets octets) r' := by
  rw [text_eq_ok_iff, takes_iff, length_ofOctets, Nat.mul_left_cancel_iff (by decide)]

end Reader

namespace Writer

def push (w : Writer) (x : Bits) : Writer := x.foldl pushBit w

@[simp] theorem push_nil (w : Writer) : w.push [] = w := rfl

theorem push_append (w : Writer) (x y : Bits) : w.push (x ++ y) = (w.push x).push y :=
  List.foldl_append

@[simp] theorem bits_push (w : Writer) (x : Bits) : (w.push x).bits = w.bits ++ x := by
  induction x generalizing w with
  | nil => simp
  | cons bit x ih =>
      have := ih (w.pushBit bit)
      rw [bits_pushBit, List.append_assoc] at this
      exact this

theorem written_push (w : Writer) (x : Bits) : (w.push x).written = w.written + x.length := by
  rw [← length_bits, ← length_bits, bits_push, List.length_append]

theorem pushNumber_eq (w : Writer) (width n : Nat) :
    w.pushNumber width n = w.push (Bits.ofNat width n) := by
  induction width generalizing w with
  | zero => rfl
  | succ width ih => exact ih (w.pushBit (n.testBit width))

theorem pushOctets_eq (w : Writer) (octets : Octets) :
    w.pushOctets octets = w.push (Bits.ofOctets octets) := by
  induction octets generalizing w with
  | nil => rfl
  | cons octet octets ih =>
      have := ih (w.pushNumber 8 octet.toNat)
      rw [pushNumber_eq] at this
      rw [ofOctets_cons, push_append, ← this, ← pushNumber_eq]
      rfl

/-! ## Primitives -/

theorem number_ok_iff {w w' : Writer} {width n : Nat} :
    w.number width n = .ok w' ↔
      width ≤ 64 ∧ n ≤ missing width ∧ w' = w.push (Bits.ofNat width n) := by
  unfold number
  split
  case isTrue wide => simp; omega
  split
  case isTrue large => simp; omega
  case isFalse wide small =>
    rw [Except.ok.injEq, eq_comm, pushNumber_eq]
    exact ⟨fun same => ⟨by omega, by omega, same⟩, fun same => same.2.2⟩

theorem number?_ok_iff {w w' : Writer} {width : Nat} {n? : Option Nat} :
    w.number? width n? = .ok w' ↔
      width ≤ 64 ∧ Fits width n? ∧ w' = w.push (ofNumber? width n?) := by
  cases n? with
  | none => simp [number?, number_ok_iff, Fits, ofNumber?]
  | some n =>
      simp only [number?]
      split
      case isTrue large =>
        constructor
        · intro impossible; cases impossible
        · rintro ⟨_, fits, _⟩
          have := fits n rfl
          omega
      case isFalse small =>
        rw [number_ok_iff]
        constructor
        · rintro ⟨narrow, le, same⟩
          refine ⟨narrow, ?_, same⟩
          intro n' found
          cases found
          exact ⟨le, fun positive all => small ⟨positive, Nat.le_of_eq all.symm⟩⟩
        · rintro ⟨narrow, fits, same⟩
          exact ⟨narrow, (fits n rfl).1, same⟩

theorem ofNat_signed {width : Nat} {n : Int} (wide : 2 ≤ width) (narrow : width ≤ 64)
    (fits : n.natAbs ≤ missing (width - 1)) :
    Bits.ofNat width (if n < 0 then 2 ^ (width - 1) + n.natAbs else n.natAbs) =
      ofSigned width n := by
  obtain ⟨low, rfl⟩ : ∃ low, width = low + 1 := ⟨width - 1, by omega⟩
  have := missing_lt (show low ≤ 64 by omega)
  have small : n.natAbs < 2 ^ low := by
    simp only [Nat.add_sub_cancel] at fits
    omega
  simp only [Nat.add_sub_cancel, Bits.ofNat, ofSigned]
  split
  case isTrue negative =>
    rw [← ofNat_mod, Nat.add_mod_left, Nat.mod_eq_of_lt small, Nat.testBit_two_pow_add_eq,
      Nat.testBit_lt_two_pow small]
    simp [negative]
  case isFalse positive =>
    rw [Nat.testBit_lt_two_pow small]
    simp [positive]

theorem signed_ok_iff {w w' : Writer} {width : Nat} {n : Int} :
    w.signed width n = .ok w' ↔
      2 ≤ width ∧ width ≤ 64 ∧ n.natAbs ≤ missing (width - 1) ∧
        w' = w.push (ofSigned width n) := by
  unfold signed
  split
  case isTrue narrow => simp; omega
  split
  case isTrue wide large => simp; omega
  case isFalse wide small =>
    rw [number_ok_iff]
    constructor
    · rintro ⟨narrow, _, same⟩
      rw [ofNat_signed (by omega) narrow (by omega)] at same
      exact ⟨by omega, narrow, by omega, same⟩
    · rintro ⟨_, narrow, le, same⟩
      rw [ofNat_signed (by omega) narrow le]
      refine ⟨narrow, ?_, same⟩
      have half : 2 ^ width = 2 * 2 ^ (width - 1) := by
        rw [← Nat.pow_succ', show (width - 1).succ = width by omega]
      have := missing_lt (show width - 1 ≤ 64 by omega)
      rw [missing_eq narrow]
      split <;> omega

def padded (length : Nat) (octets : Octets) : Octets :=
  octets.take length ++ List.replicate (length - (octets.take length).length) 0x20

theorem length_padded (length : Nat) (octets : Octets) : (padded length octets).length = length := by
  simp only [padded, List.length_append, List.length_take, List.length_replicate]
  omega

theorem text_ok_iff {w w' : Writer} {length : Nat} {octets : Octets} :
    w.text length octets = .ok w' ↔
      length ≤ maxCapacity ∧ w' = w.push (Bits.ofOctets (padded length octets)) := by
  unfold text padded
  split
  case isTrue => simp; omega
  case isFalse =>
    rw [Except.ok.injEq, eq_comm, pushOctets_eq]
    exact ⟨fun same => ⟨by omega, same⟩, fun same => same.2⟩

theorem missingText_eq (w : Writer) (length : Nat) :
    w.missingText length = w.push (Bits.ofOctets (List.replicate length 0xff)) :=
  pushOctets_eq w _

theorem length_finish (w : Writer) : w.finish.length = (w.written + 7) / 8 := by
  have long := congrArg List.length (ofOctets_finish w)
  have := w.count_lt
  rw [length_ofOctets, List.length_append, length_bits, List.length_replicate] at long
  simp only [written] at *
  omega

end Writer

end Bufr.Bits
