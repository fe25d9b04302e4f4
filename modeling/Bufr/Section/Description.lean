import Bufr.Section.Framing

namespace Bufr

structure Description where
  sectionLength : Nat
  subsetCount : UInt16
  isObserved : Bool
  isCompressed : Bool
  descriptors : List Descriptor
deriving DecidableEq

namespace Description

def read : Input Description := do
  let sectionLength ← Input.length
  let _reserved ← Input.octet
  if sectionLength < 7 then throw (.shortSection .description)
  let subsetCount ← Input.word
  let flags ← Input.octet
  let descriptors ← Input.descriptors ((sectionLength - 7) / 2)
  let _filling ← Input.octets ((sectionLength - 7) % 2)
  return {
    sectionLength
    subsetCount
    isObserved := Section.firstFlag flags
    isCompressed := Section.secondFlag flags
    descriptors }

def octets (edition : UInt8) (description : Description) : Except Error Octets :=
  Section.ofBody (Section.isEven edition)
    ([0] ++ Octets.ofWord description.subsetCount ++
      [Section.flags description.isObserved description.isCompressed] ++
      description.descriptors.flatMap Octets.ofDescriptor)

end Description

end Bufr
