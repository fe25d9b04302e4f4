import Bufr.Header
import Bufr.Section.Data
import Bufr.Subset.Decoding
import Bufr.Subset.Encoding
import Bufr.Template.Expansion

/-!
Whole bulletins. What follows from the content, such as the lengths of sections, is not kept.
-/

namespace Bufr

structure Bulletin where
  edition : UInt8
  identity : Identity
  optional : Option Octets
  isObserved : Bool
  descriptors : Chain
  subsets : List Subset
deriving DecidableEq

namespace Bulletin

def blankIdentity : Identity where
  masterTable := 0
  centre := 0
  subCentre := 0
  update := 0
  category := 0
  internationalSubCategory := 0
  localSubCategory := 0
  masterVersion := 13
  localVersion := 0
  year := 0
  month := 0
  day := 0
  hour := 0
  minute := 0
  second := 0

def blank : Bulletin where
  edition := 4
  identity := blankIdentity
  optional := none
  isObserved := true
  descriptors := []
  subsets := []

def readSections (available : Nat) : Input (Header × DataSection) := do
  let header ← Header.read
  if available < header.indicator.totalLength then
    throw (.cutBulletin header.indicator.totalLength available)
  if header.description.isCompressed then throw .compressed
  let data ← DataSection.read
  EndSection.read header.indicator.edition
  return (header, data)

def decode (resolver : Resolver) (octets : Octets) : Except Error Bulletin := do
  let ((header, section4), _) ← readSections octets.length octets
  let descriptors := header.description.descriptors
  let template ← Template.expand resolver descriptors
  let subsets ←
    decodeSubsets resolver template section4.data header.description.subsetCount.toNat
  return {
    edition := header.indicator.edition
    identity := header.identification.identity
    optional := header.optional.map (·.content)
    isObserved := header.description.isObserved
    descriptors
    subsets }

/-- The header of a bulletin; its lengths are those of the sections when they are written. -/
def header (bulletin : Bulletin) : Header where
  indicator := { totalLength := 0, edition := bulletin.edition }
  identification := {
    sectionLength := 0
    identity := bulletin.identity
    hasOptional := bulletin.optional.isSome
    localUse := [] }
  optional := bulletin.optional.map fun content => { sectionLength := 0, content }
  description := {
    sectionLength := 0
    subsetCount := .ofNat bulletin.subsets.length
    isObserved := bulletin.isObserved
    isCompressed := false
    descriptors := bulletin.descriptors }

def encode (resolver : Resolver) (bulletin : Bulletin) : Except Error Octets := do
  let template ← Template.expand resolver bulletin.descriptors
  let data ← encodeSubsets resolver template bulletin.subsets
  if 65535 < bulletin.subsets.length then throw (.tooManySubsets bulletin.subsets.length)
  let sections ← bulletin.header.bodyOctets
  let section4 ← DataSection.octets data
  let body := sections ++ section4 ++ EndSection.mark
  let section0 ← Indicator.octets {
    totalLength := Indicator.size + body.length
    edition := bulletin.edition }
  return section0 ++ body

end Bulletin

end Bufr
