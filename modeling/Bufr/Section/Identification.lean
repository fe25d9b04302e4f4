import Bufr.Section.Framing

/-!
Section 1 tells who made the bulletin, what it is about and when. Edition 3 has fewer octets for
that: no seconds, no local sub-category, one octet for a centre and the year of the century.
-/

namespace Bufr

structure Identity where
  masterTable : UInt8
  centre : UInt16
  subCentre : UInt16
  update : UInt8
  category : UInt8
  internationalSubCategory : UInt8
  localSubCategory : UInt8
  masterVersion : UInt8
  localVersion : UInt8
  year : UInt16
  month : UInt8
  day : UInt8
  hour : UInt8
  minute : UInt8
  second : UInt8
deriving DecidableEq

structure Identification where
  sectionLength : Nat
  identity : Identity
  hasOptional : Bool
  localUse : Octets
deriving DecidableEq

namespace Identification

/-! ## Edition 4 -/

def read4 : Input Identification := do
  let sectionLength ← Input.length
  if sectionLength < 22 then throw (.shortSection .identification4)
  let masterTable ← Input.octet
  let centre ← Input.word
  let subCentre ← Input.word
  let update ← Input.octet
  let flags ← Input.octet
  let category ← Input.octet
  let internationalSubCategory ← Input.octet
  let localSubCategory ← Input.octet
  let masterVersion ← Input.octet
  let localVersion ← Input.octet
  let year ← Input.word
  let month ← Input.octet
  let day ← Input.octet
  let hour ← Input.octet
  let minute ← Input.octet
  let second ← Input.octet
  let localUse ← Input.octets (sectionLength - 22)
  return {
    sectionLength
    identity := {
      masterTable, centre, subCentre, update, category, internationalSubCategory
      localSubCategory, masterVersion, localVersion, year, month, day, hour, minute, second }
    hasOptional := Section.firstFlag flags
    localUse }

def octets4 (identification : Identification) : Except Error Octets :=
  let identity := identification.identity
  Section.ofBody false
    ([identity.masterTable] ++ Octets.ofWord identity.centre ++ Octets.ofWord identity.subCentre ++
      [identity.update, Section.flags identification.hasOptional false, identity.category,
        identity.internationalSubCategory, identity.localSubCategory, identity.masterVersion,
        identity.localVersion] ++
      Octets.ofWord identity.year ++
      [identity.month, identity.day, identity.hour, identity.minute, identity.second] ++
      identification.localUse)

/-! ## Edition 3 -/

/-- Years of the century from 51 to 100 belong to the twentieth, all others to the one after it. -/
def fullYear (year : UInt8) : UInt16 :=
  if 51 ≤ year.toNat ∧ year.toNat ≤ 100 then .ofNat (1900 + year.toNat)
  else .ofNat (2000 + year.toNat % 100)

/-- The last year of a century is its hundredth, from 2000 on. -/
def yearOfCentury (year : UInt16) : UInt8 :=
  if year.toNat % 100 = 0 ∧ 2000 ≤ year.toNat then 100 else .ofNat (year.toNat % 100)

def read3 : Input Identification := do
  let sectionLength ← Input.length
  if sectionLength < 17 then throw (.shortSection .identification3)
  let masterTable ← Input.octet
  let subCentre ← Input.octet
  let centre ← Input.octet
  let update ← Input.octet
  let flags ← Input.octet
  let category ← Input.octet
  let subCategory ← Input.octet
  let masterVersion ← Input.octet
  let localVersion ← Input.octet
  let year ← Input.octet
  let month ← Input.octet
  let day ← Input.octet
  let hour ← Input.octet
  let minute ← Input.octet
  let localUse ← Input.octets (sectionLength - 17)
  return {
    sectionLength
    identity := {
      masterTable
      centre := centre.toUInt16
      subCentre := subCentre.toUInt16
      update
      category
      internationalSubCategory := subCategory
      localSubCategory := 0
      masterVersion
      localVersion
      year := fullYear year
      month
      day
      hour
      minute
      second := 0 }
    hasOptional := Section.firstFlag flags
    localUse }

def octets3 (identification : Identification) : Except Error Octets :=
  let identity := identification.identity
  if 255 < identity.subCentre.toNat then .error (.wideSubCentre identity.subCentre)
  else if 255 < identity.centre.toNat then .error (.wideCentre identity.centre)
  else
    Section.ofBody true
      ([identity.masterTable, identity.subCentre.toUInt8, identity.centre.toUInt8, identity.update,
        Section.flags identification.hasOptional false, identity.category,
        identity.internationalSubCategory, identity.masterVersion, identity.localVersion,
        yearOfCentury identity.year, identity.month, identity.day, identity.hour,
        identity.minute] ++
        identification.localUse)

def read (edition : UInt8) : Input Identification :=
  if edition = 3 then read3
  else if edition = 4 then read4
  else throw (.unsupportedEdition edition)

def octets (edition : UInt8) (identification : Identification) : Except Error Octets :=
  if edition = 3 then identification.octets3
  else if edition = 4 then identification.octets4
  else .error (.unsupportedEdition edition)

end Identification

end Bufr
