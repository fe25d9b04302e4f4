import Bufr.Text.Padded

/-!
Descriptors F XX YYY. Two octets hold one: two bits of F, six of X, eight of Y.
-/

namespace Bufr

structure Descriptor where
  f : UInt8
  x : UInt8
  y : UInt8
deriving DecidableEq, Hashable, Ord, Inhabited

namespace Descriptor

inductive Kind where
  | element
  | replication
  | operator
  | sequence
deriving DecidableEq

def element (x y : UInt8) : Descriptor := ⟨0, x, y⟩
def replication (x y : UInt8) : Descriptor := ⟨1, x, y⟩
def operator (x y : UInt8) : Descriptor := ⟨2, x, y⟩
def sequence (x y : UInt8) : Descriptor := ⟨3, x, y⟩

/-- Only the two low bits of F tell the kind. -/
def kind (d : Descriptor) : Kind :=
  match d.f.toNat % 4 with
  | 0 => .element
  | 1 => .replication
  | 2 => .operator
  | _ => .sequence

def code (d : Descriptor) : UInt16 :=
  .ofNat (d.f.toNat % 4 * 16384 + d.x.toNat % 64 * 256 + d.y.toNat)

def ofCode (code : UInt16) : Descriptor :=
  ⟨.ofNat (code.toNat / 16384), .ofNat (code.toNat / 256 % 64), .ofNat (code.toNat % 256)⟩

def key (d : Descriptor) : UInt8 × UInt8 := (d.x, d.y)

/-- Class 31: replication factors and bitmap entries. -/
def isQualifier (d : Descriptor) : Bool := d.f == 0 && d.x == 31

def isCount (d : Descriptor) : Bool :=
  d.x == 31 && (d.y ≤ 2 || d.y == 11 || d.y == 12)

def isReferable (d : Descriptor) : Bool := d.f == 0 && !d.isQualifier

def dataPresent : Descriptor := element 31 31

def letter : Kind → String
  | .element => "B"
  | .replication => "R"
  | .operator => "C"
  | .sequence => "D"

instance : ToString Descriptor where
  toString d := letter d.kind ++ Text.zeroPadded 2 d.x.toNat ++ Text.zeroPadded 3 d.y.toNat

def digits (d : Descriptor) : String :=
  toString d.f.toNat ++ Text.zeroPadded 2 d.x.toNat ++ Text.zeroPadded 3 d.y.toNat

def sorted (ds : List Descriptor) : List Descriptor :=
  ds.mergeSort fun a b => (compare a b).isLE

theorem ofCode_code {d : Descriptor} (f_le : d.f ≤ 3) (x_le : d.x ≤ 63) : ofCode d.code = d := by
  obtain ⟨f, x, y⟩ := d
  rw [UInt8.le_iff_toNat_le] at f_le x_le
  have := y.toNat_lt
  simp only [code, ofCode, UInt16.toNat_ofNat', mk.injEq, ← UInt8.toNat_inj, UInt8.toNat_ofNat']
  simp only [UInt8.reduceToNat] at f_le x_le
  omega

theorem code_ofCode (code : UInt16) : (ofCode code).code = code := by
  have := code.toNat_lt
  simp only [Descriptor.code, ofCode, ← UInt16.toNat_inj, UInt8.toNat_ofNat', UInt16.toNat_ofNat']
  omega

end Descriptor

end Bufr
