import Bufr.Octets
import Bufr.Proofs.Outcome

/-!
Reading what was written, whatever follows. A reader takes just the octets of its value and leaves
the others alone, so laws of parts make laws of wholes.
-/

namespace Bufr.Input

def Reads {α : Type} (input : Input α) (front : Octets) (a : α) : Prop :=
  ∀ rest, input (front ++ rest) = .ok (a, rest)

variable {α β : Type} {input : Input α} {f : α → Input β} {front back : Octets} {a : α} {b : β}

namespace Reads

theorem of_pure (a : α) : Reads (pure a) [] a := fun _ => rfl

theorem bind (first : Reads input front a) (second : Reads (f a) back b) :
    Reads (input >>= f) (front ++ back) b := by
  intro rest
  rw [List.append_assoc]
  show (input (front ++ (back ++ rest)) >>= fun (a, rest) => f a rest) = _
  rw [first]
  exact second rest

theorem bind_nil (first : Reads input front a) (second : Reads (f a) [] b) :
    Reads (input >>= f) front b := by
  have read := first.bind second
  rwa [List.append_nil] at read

theorem bind_pure {g : α → β} (first : Reads input front a) :
    Reads (input >>= fun a => pure (g a)) front (g a) := first.bind_nil (of_pure (g a))

theorem octets (taken : Octets) {count : Nat} (length : taken.length = count) :
    Reads (Input.octets count) taken taken :=
  fun _ => octets_eq_ok_iff.2 ⟨length, rfl⟩

theorem number (count : Nat) {n : Nat} (small : n < 256 ^ count) :
    Reads (Input.number count) (Octets.ofNat count n) n :=
  number_ofNat_append small

theorem octet (octet : UInt8) : Reads Input.octet [octet] octet := by
  have one : Octets.ofNat 1 octet.toNat = [octet] := by simp [Octets.ofNat]
  have read : Reads Input.octet (Octets.ofNat 1 octet.toNat) (UInt8.ofNat octet.toNat) :=
    (number 1 octet.toNat_lt).bind_pure
  rwa [one, UInt8.ofNat_toNat] at read

theorem word (word : UInt16) : Reads Input.word (Octets.ofWord word) word := by
  have read : Reads Input.word (Octets.ofNat 2 word.toNat) (UInt16.ofNat word.toNat) :=
    (number 2 word.toNat_lt).bind_pure
  rwa [UInt16.ofNat_toNat] at read

theorem descriptor {d : Descriptor} (f_le : d.f ≤ 3) (x_le : d.x ≤ 63) :
    Reads Input.descriptor (Octets.ofDescriptor d) d := by
  have read : Reads Input.descriptor (Octets.ofDescriptor d) (.ofCode d.code) :=
    (word d.code).bind_pure
  rwa [Descriptor.ofCode_code f_le x_le] at read

theorem descriptorsOnto {ds : List Descriptor} (narrow : ∀ d ∈ ds, d.f ≤ 3 ∧ d.x ≤ 63)
    (done : List Descriptor) :
    Reads (Input.descriptorsOnto done ds.length) (ds.flatMap Octets.ofDescriptor)
      (done.reverse ++ ds) := by
  induction ds generalizing done with
  | nil =>
      rw [List.append_nil]
      exact of_pure done.reverse
  | cons d ds ih =>
      obtain ⟨⟨f_le, x_le⟩, others⟩ := List.forall_mem_cons.1 narrow
      have read : Reads (Input.descriptorsOnto done (d :: ds).length) _ _ :=
        (descriptor f_le x_le).bind (ih others (d :: done))
      rwa [List.reverse_cons, List.append_assoc, List.singleton_append] at read

theorem descriptors {ds : List Descriptor} (narrow : ∀ d ∈ ds, d.f ≤ 3 ∧ d.x ≤ 63) :
    Reads (Input.descriptors ds.length) (ds.flatMap Octets.ofDescriptor) ds :=
  descriptorsOnto narrow []

theorem octet_bind {f : UInt8 → Input β} (octet : UInt8) (more : Reads (f octet) back b) :
    Reads (Input.octet >>= f) (octet :: back) b := (Reads.octet octet).bind more

theorem word_bind {f : UInt16 → Input β} (word : UInt16) (more : Reads (f word) back b) :
    Reads (Input.word >>= f) (Octets.ofWord word ++ back) b := (Reads.word word).bind more

end Reads

end Bufr.Input
