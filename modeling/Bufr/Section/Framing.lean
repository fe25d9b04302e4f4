import Bufr.Octets

/-!
A section begins with its own length in three octets. Where lengths have to be even, a zero fills the
section up.
-/

namespace Bufr.Section

def filling (even : Bool) (length : Nat) : Octets :=
  if even ∧ length % 2 = 1 then [0] else []

def ofBody (even : Bool) (body : Octets) : Except Error Octets := do
  let filling := filling even (3 + body.length)
  return (← Octets.ofLength (3 + body.length + filling.length)) ++ body ++ filling

def readContent {α : Type} (name : Error.ShortSection) (make : Nat → Octets → α) : Input α := do
  let sectionLength ← Input.length
  let _reserved ← Input.octet
  if sectionLength < 4 then throw (.shortSection name)
  let content ← Input.octets (sectionLength - 4)
  return make sectionLength content

/-- Sections of edition 3 are even. -/
def isEven (edition : UInt8) : Bool := edition == 3

def firstFlag (flags : UInt8) : Bool := flags.toNat.testBit 7

def secondFlag (flags : UInt8) : Bool := flags.toNat.testBit 6

def flags (first second : Bool) : UInt8 :=
  (if first then 128 else 0) + (if second then 64 else 0)

end Bufr.Section
