import Bufr.Descriptor.Chain

namespace Bufr

/-- What a resolver answers for an element. The number is `(raw + reference) * 10 ^ -scale`. -/
structure ElementInfo where
  code : Descriptor
  name : String
  unit : String
  scale : Int
  reference : Int
  width : Nat
  isText : Bool
deriving DecidableEq, Inhabited

namespace PhysicalUnit

def lower (unit : String) : List Char := unit.toList.map Char.toLower

def isText (unit : String) : Bool :=
  lower unit == "ccitt ia5".toList || lower unit == "ccittia5".toList

def isCoded (unit : String) : Bool :=
  ["code table", "flag table", "code-table", "flag-table"].any fun start =>
    start.toList.isPrefixOf (lower unit)

end PhysicalUnit

/-- Code and flag tables hold numbers that width and scale operators leave alone. -/
def ElementInfo.isCoded (info : ElementInfo) : Bool := PhysicalUnit.isCoded info.unit

structure ElementEntry where
  x : UInt8
  y : UInt8
  className : String
  name : String
  unit : String
  scale : Int
  reference : Int
  width : Nat
deriving DecidableEq, Inhabited

def ElementEntry.info (entry : ElementEntry) : ElementInfo where
  code := .element entry.x entry.y
  name := entry.name
  unit := entry.unit
  scale := entry.scale
  reference := entry.reference
  width := entry.width
  isText := PhysicalUnit.isText entry.unit

structure SequenceEntry where
  x : UInt8
  y : UInt8
  category : String
  title : String
  elements : Chain
deriving DecidableEq, Inhabited

end Bufr
