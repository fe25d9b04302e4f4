import Bufr.Proofs.Wire.Header

/-!
A header that was read keeps its content when it is written and read again, but for a year that the
edition cannot tell from one of another century.
-/

namespace Bufr

open Input (Reads)

namespace Identification

theorem fullYear_bounds (octet : UInt8) :
    1951 ≤ (fullYear octet).toNat ∧ (fullYear octet).toNat ≤ 2099 := by
  have := octet.toNat_lt
  unfold fullYear
  split <;> rw [UInt16.toNat_ofNat'] <;> omega

theorem fullYear_yearOfCentury_late {year : UInt16} (first : 2051 ≤ year.toNat)
    (last : year.toNat ≤ 2099) : fullYear (yearOfCentury year) = year - 100 := by
  apply UInt16.toNat_inj.1
  have notFirst : ¬(year.toNat % 100 = 0 ∧ 2000 ≤ year.toNat) := by omega
  have small : year.toNat % 100 < 2 ^ 8 := by omega
  have earlier : (100 : UInt16) ≤ year := by
    simp only [UInt16.le_iff_toNat_le, UInt16.reduceToNat]
    omega
  rw [yearOfCentury, if_neg notFirst, fullYear, UInt8.toNat_ofNat', Nat.mod_eq_of_lt small,
    if_pos (by omega), UInt16.toNat_ofNat', UInt16.toNat_sub_of_le _ _ earlier]
  simp only [UInt16.reduceToNat]
  omega

def keptYear (edition : UInt8) (year : UInt16) : UInt16 :=
  if edition = 3 ∧ 2050 < year.toNat then year - 100 else year

theorem fullYear_yearOfCentury_fullYear (octet : UInt8) :
    fullYear (yearOfCentury (fullYear octet)) = keptYear 3 (fullYear octet) := by
  obtain ⟨first, last⟩ := fullYear_bounds octet
  unfold keptYear
  split
  next late => exact fullYear_yearOfCentury_late late.2 last
  next early => exact fullYear_yearOfCentury first (Nat.not_lt.1 fun late => early ⟨rfl, late⟩)

end Identification

namespace Header

/-- What a header keeps by being written and read: everything but the lengths of its sections. Edition
3 may fill sections up and takes a year behind 2050 for one of the century before. -/
structure Keeps (header back : Header) : Prop where
  indicator : back.indicator = header.indicator
  identity : back.identification.identity =
    { header.identification.identity with
      year := Identification.keptYear header.indicator.edition header.identification.identity.year }
  hasOptional : back.identification.hasOptional = header.identification.hasOptional
  localUse : back.identification.localUse = Section.filled (Section.isEven header.indicator.edition)
    (Identification.front header.indicator.edition) header.identification.localUse
  optional : back.optional.map (·.content) = (header.optional.map (·.content)).map
    (Section.filled (Section.isEven header.indicator.edition) 4)
  description : back.description =
    { header.description with sectionLength := back.description.sectionLength }

theorem IsLegible.identityIn {header : Header} (legible : header.IsLegible) :
    identityIn header.indicator.edition header.identification.identity =
      { header.identification.identity with
        year := Identification.keptYear header.indicator.edition header.identification.identity.year } := by
  unfold Header.identityIn
  split
  next third =>
    obtain ⟨localSubCategory, second, octet, year⟩ := legible.lost third
    simp only [third, Identity.inEdition3, year, Identification.fullYear_yearOfCentury_fullYear,
      localSubCategory, second]
  next notThird => rw [Identification.keptYear, if_neg fun late => notThird late.1]

theorem IsLegible.keeps {header : Header} (legible : header.IsLegible) :
    header.Keeps header.received where
  indicator := rfl
  identity := legible.identityIn
  hasOptional := legible.flagged
  localUse := rfl
  optional := by
    unfold received
    simp only [Option.map_map]
    rfl
  description := rfl

/-- Just the declared lengths are read, and what was read comes back. -/
theorem keeps_of_read {octets rest : Octets} {header : Header} (found : read octets = .ok (header, rest)) :
    (∃ taken, octets = taken ++ rest ∧ taken.length = header.extent) ∧
    header.optional.isSome = header.identification.hasOptional ∧
    ∀ written, header.octets = .ok written →
      ∃ back, read written = .ok (back, []) ∧ header.Keeps back := by
  obtain ⟨taken, split, extent, legible⟩ := ensures_read _ _ _ found
  refine ⟨⟨taken, split, extent⟩, legible.flagged, fun written ok => ?_⟩
  have again := reads legible.narrow ok []
  rw [List.append_nil] at again
  exact ⟨header.received, again, legible.keeps⟩

def foreignHeader : Header where
  indicator := ⟨46, 3⟩
  identification := ⟨17, ⟨0, 80, 0, 0, 0, 1, 0, 13, 0, 2024, 5, 17, 12, 0, 0⟩, true, []⟩
  optional := some ⟨7, [1, 2, 3]⟩
  description := ⟨10, 1, false, true, [.element 12 101]⟩

theorem keeps_of_read_foreignHeader :
    read [66, 85, 70, 82, 0, 0, 46, 3, 0, 0, 17, 0, 0, 80, 0, 255, 0, 1, 13, 0, 124, 5, 17, 12, 0, 0, 0,
      7, 9, 1, 2, 3, 0, 0, 10, 9, 0, 1, 127, 12, 101, 170, 55, 55, 55, 55] =
        .ok (foreignHeader, [55, 55, 55, 55]) ∧
    ∃ back, read [66, 85, 70, 82, 0, 0, 46, 3, 0, 0, 18, 0, 0, 80, 0, 128, 0, 1, 13, 0, 24, 5, 17, 12, 0,
      0, 0, 0, 8, 0, 1, 2, 3, 0, 0, 0, 10, 0, 0, 1, 64, 12, 101, 0] = .ok (back, []) ∧
        foreignHeader.Keeps back := by
  have found : read [66, 85, 70, 82, 0, 0, 46, 3, 0, 0, 17, 0, 0, 80, 0, 255, 0, 1, 13, 0, 124, 5, 17, 12,
      0, 0, 0, 7, 9, 1, 2, 3, 0, 0, 10, 9, 0, 1, 127, 12, 101, 170, 55, 55, 55, 55] =
        .ok (foreignHeader, [55, 55, 55, 55]) := by decide +kernel
  exact ⟨found, (keeps_of_read found).2.2 _ (by decide +kernel)⟩

def lateOctets : Octets :=
  [66, 85, 70, 82, 0, 0, 34, 3, 0, 0, 18, 0, 0, 98, 0, 0, 2, 4, 13, 0, 151, 5, 17, 12, 0, 0, 0, 0, 8, 0, 0,
    1, 128, 0]

def lateHeader : Header where
  indicator := ⟨34, 3⟩
  identification := ⟨18, ⟨0, 98, 0, 0, 2, 4, 0, 13, 0, 2051, 5, 17, 12, 0, 0⟩, false, [0]⟩
  optional := none
  description := ⟨8, 1, true, false, []⟩

/-- The year 2051 comes back as 1951. -/
theorem not_always_same_identity :
    ¬∀ (octets rest written : Octets) (header : Header),
      read octets = .ok (header, rest) → header.octets = .ok written →
      ∃ back, read written = .ok (back, []) ∧
        back.identification.identity = header.identification.identity := by
  intro always
  have written : lateHeader.octets = .ok [66, 85, 70, 82, 0, 0, 34, 3, 0, 0, 18, 0, 0, 98, 0, 0, 2, 4, 13,
      0, 51, 5, 17, 12, 0, 0, 0, 0, 8, 0, 0, 1, 128, 0] := by decide +kernel
  obtain ⟨back, again, same⟩ := always lateOctets [] _ lateHeader (by decide +kernel) written
  cases (reads (by decide) written []).symm.trans again
  revert same
  decide

end Header

end Bufr
