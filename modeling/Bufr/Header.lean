import Bufr.Section.Description
import Bufr.Section.Identification
import Bufr.Section.Indicator
import Bufr.Section.Optional

namespace Bufr

structure Header where
  indicator : Indicator
  identification : Identification
  optional : Option OptionalSection
  description : Description
deriving DecidableEq

namespace Header

def readOptional (present : Bool) : Input (Option OptionalSection) :=
  if present then some <$> OptionalSection.read else return none

def read : Input Header := do
  let indicator ← Indicator.read
  let identification ← Identification.read indicator.edition
  let optional ← readOptional identification.hasOptional
  let description ← Description.read
  return { indicator, identification, optional, description }

def optionalOctets (edition : UInt8) : Option OptionalSection → Except Error Octets
  | none => .ok []
  | some section2 => section2.octets edition

/-- Sections 1 to 3. Section 0 needs the length of the whole bulletin and is written on its own. -/
def bodyOctets (header : Header) : Except Error Octets := do
  let edition := header.indicator.edition
  let identification := { header.identification with hasOptional := header.optional.isSome }
  let section1 ← identification.octets edition
  let section2 ← optionalOctets edition header.optional
  let section3 ← header.description.octets edition
  return section1 ++ section2 ++ section3

def octets (header : Header) : Except Error Octets := do
  let section0 ← header.indicator.octets
  return section0 ++ (← header.bodyOctets)

end Header

end Bufr
