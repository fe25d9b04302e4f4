import Bufr.Bulletin
import Bufr.Proofs.Coding.Operators
import Bufr.Proofs.Coding.Reading
import Bufr.Proofs.Wire.Header

/-!
A bulletin is read as it was written. Edition 3 has no place for everything and makes its sections
even, and this is all that changes.
-/

namespace Bufr

open Input (Reads)

theorem decodeSubsets_append {resolver : Resolver} {template : Template} {data filling : Octets}
    {count : Nat} {subsets : List Subset}
    (read : decodeSubsets resolver template data count = .ok subsets) :
    decodeSubsets resolver template (data ++ filling) count = .ok subsets := by
  obtain ⟨fit, long, x, y, spelled, split⟩ := decodeSubsets_ok_iff.1 read
  refine decodeSubsets_ok_iff.2 ⟨fit, long, x, y ++ Bits.ofOctets filling, spelled, ?_⟩
  rw [Bits.ofOctets_append, split, List.append_assoc]

namespace Bulletin

variable {resolver : Resolver} {bulletin : Bulletin} {octets data : Octets} {template : Template}

structure Sections (bulletin : Bulletin) (data section0 front section4 octets : Octets) : Prop where
  few : bulletin.subsets.length ≤ 65535
  indicatorOk : Indicator.octets ⟨octets.length, bulletin.edition⟩ = .ok section0
  frontOk : bulletin.header.bodyOctets = .ok front
  dataOk : DataSection.octets data = .ok section4
  whole : octets = section0 ++ front ++ section4 ++ EndSection.mark

theorem sections_of_encode (encoded : encode resolver bulletin = .ok octets)
    (expanded : Template.expand resolver bulletin.descriptors = .ok template)
    (written : encodeSubsets resolver template bulletin.subsets = .ok data) :
    ∃ section0 front section4, Sections bulletin data section0 front section4 octets := by
  unfold encode at encoded
  rw [expanded, ok_bind, written, ok_bind] at encoded
  split at encoded
  · cases encoded
  next few =>
    obtain ⟨front, frontOk, encoded⟩ := bind_eq_ok.1 encoded
    obtain ⟨section4, dataOk, encoded⟩ := bind_eq_ok.1 encoded
    obtain ⟨section0, indicatorOk, encoded⟩ := bind_eq_ok.1 encoded
    cases encoded
    refine ⟨section0, front, section4, ⟨Nat.not_lt.1 few, ?_, frontOk, dataOk, ?_⟩⟩
    · rw [List.length_append, Indicator.length_octets indicatorOk]
      exact indicatorOk
    · simp only [List.append_assoc]

def received (bulletin : Bulletin) : Bulletin :=
  { bulletin with
    identity := Header.identityIn bulletin.edition bulletin.identity
    optional := bulletin.optional.map fun content =>
      content ++ Section.filling (Section.isEven bulletin.edition) (4 + content.length) }

def wholeHeader (bulletin : Bulletin) (octets : Octets) : Header :=
  { bulletin.header with indicator := ⟨octets.length, bulletin.edition⟩ }

theorem reads_header {section0 front section4 : Octets}
    (sections : Sections bulletin data section0 front section4 octets)
    (narrow : ∀ d ∈ bulletin.descriptors, d.f ≤ 3 ∧ d.x ≤ 63) :
    Reads Header.read (section0 ++ front) (bulletin.wholeHeader octets).received := by
  refine Header.reads narrow (bind_eq_ok.2 ⟨section0, sections.indicatorOk, ?_⟩)
  exact bind_eq_ok.2 ⟨front, sections.frontOk, rfl⟩

theorem reads_sections {section0 front section4 : Octets}
    (sections : Sections bulletin data section0 front section4 octets)
    (narrow : ∀ d ∈ bulletin.descriptors, d.f ≤ 3 ∧ d.x ≤ 63) :
    Reads (readSections octets.length) octets ((bulletin.wholeHeader octets).received,
      ⟨4 + (Section.filled true 4 data).length, Section.filled true 4 data⟩) := by
  have read : Reads (readSections octets.length)
      (section0 ++ front ++ (section4 ++ EndSection.mark)) ((bulletin.wholeHeader octets).received,
        ⟨4 + (Section.filled true 4 data).length, Section.filled true 4 data⟩) := by
    have available :
        ¬octets.length < (bulletin.wholeHeader octets).received.indicator.totalLength :=
      Nat.lt_irrefl octets.length
    have plain : (bulletin.wholeHeader octets).received.description.isCompressed = false := rfl
    refine (reads_header sections narrow).bind ?_
    simp only [available, plain, Bool.false_eq_true, if_false]
    exact (DataSection.reads sections.dataOk).bind (EndSection.reads _).bind_pure
  rwa [← List.append_assoc, ← sections.whole] at read

theorem optional_received : (bulletin.wholeHeader octets).received.optional.map (·.content) =
    bulletin.received.optional := by
  show Option.map _ (Option.map _ (Option.map _ bulletin.optional)) = _
  simp only [Option.map_map]
  rfl

theorem decode_of_sections {section0 front section4 : Octets}
    (sections : Sections bulletin data section0 front section4 octets)
    (narrow : ∀ d ∈ bulletin.descriptors, d.f ≤ 3 ∧ d.x ≤ 63)
    (expanded : Template.expand resolver bulletin.descriptors = .ok template)
    (survive : decodeSubsets resolver template data bulletin.subsets.length = .ok bulletin.subsets) :
    decode resolver octets = .ok bulletin.received := by
  have all := reads_sections sections narrow []
  rw [List.append_nil] at all
  have descriptors : (bulletin.wholeHeader octets).received.description.descriptors =
      bulletin.descriptors := rfl
  have count : (bulletin.wholeHeader octets).received.description.subsetCount.toNat =
      bulletin.subsets.length := by
    show (UInt16.ofNat bulletin.subsets.length).toNat = _
    have := sections.few
    rw [UInt16.toNat_ofNat', Nat.mod_eq_of_lt (by omega)]
  unfold decode
  rw [all, ok_bind]
  simp only [descriptors, count]
  rw [expanded, ok_bind, Section.filled, decodeSubsets_append survive, ok_bind, optional_received]
  rfl

def inEdition3 (bulletin : Bulletin) : Bulletin :=
  { bulletin with
    identity := { bulletin.identity with localSubCategory := 0, second := 0 }
    optional := bulletin.optional.map fun content =>
      if content.length % 2 = 1 then content ++ [0] else content }

theorem received_of_edition4 (fourth : bulletin.edition = 4) : bulletin.received = bulletin := by
  have same_identity : Header.identityIn bulletin.edition bulletin.identity = bulletin.identity := by
    rw [fourth]
    rfl
  have same_optional : (bulletin.optional.map fun content => content ++
      Section.filling (Section.isEven bulletin.edition) (4 + content.length)) = bulletin.optional := by
    have odd : Section.isEven bulletin.edition = false := by
      rw [fourth]
      rfl
    simp only [odd, Section.filling_false, List.append_nil, Option.map_id']
  rw [received, same_identity, same_optional]

theorem received_of_edition3 (third : bulletin.edition = 3)
    (first : 1951 ≤ bulletin.identity.year.toNat) (last : bulletin.identity.year.toNat ≤ 2050) :
    bulletin.received = bulletin.inEdition3 := by
  have same_identity : Header.identityIn bulletin.edition bulletin.identity =
      { bulletin.identity with localSubCategory := 0, second := 0 } := by
    rw [third, Header.identityIn, if_pos rfl, Identity.inEdition3,
      Identification.fullYear_yearOfCentury first last]
  have filled (content : Octets) : content ++
      Section.filling (Section.isEven bulletin.edition) (4 + content.length) =
        if content.length % 2 = 1 then content ++ [0] else content := by
    have even : Section.isEven bulletin.edition = true := by
      rw [third]
      rfl
    have odd_iff : (4 + content.length) % 2 = 1 ↔ content.length % 2 = 1 := by omega
    simp only [even, Section.filling, true_and, odd_iff]
    split
    · rfl
    · exact List.append_nil _
  rw [received, inEdition3, same_identity, funext filled]

/-- Neither a descriptor nor a subset comes out of what fills a section up. -/
theorem decode_of_encode (encoded : encode resolver bulletin = .ok octets)
    (narrow : ∀ d ∈ bulletin.descriptors, d.f ≤ 3 ∧ d.x ≤ 63)
    (expanded : Template.expand resolver bulletin.descriptors = .ok template)
    (written : encodeSubsets resolver template bulletin.subsets = .ok data)
    (survive : decodeSubsets resolver template data bulletin.subsets.length = .ok bulletin.subsets) :
    (bulletin.edition = 4 → decode resolver octets = .ok bulletin) ∧
    (bulletin.edition = 3 → 1951 ≤ bulletin.identity.year.toNat →
      bulletin.identity.year.toNat ≤ 2050 → decode resolver octets = .ok bulletin.inEdition3) := by
  obtain ⟨section0, front, section4, sections⟩ := sections_of_encode encoded expanded written
  have decoded := decode_of_sections sections narrow expanded survive
  constructor
  · intro fourth
    rwa [received_of_edition4 fourth] at decoded
  · intro third first last
    rwa [received_of_edition3 third first last] at decoded

def stationBulletin (edition : UInt8) : Bulletin where
  edition
  identity :=
    { blankIdentity with localSubCategory := 7, year := 2000, month := 11, second := 30 }
  optional := some [1, 2, 3]
  isObserved := true
  descriptors := [.element 12 101, .element 1 15]
  subsets := [
    ⟨#[.ofValue (.element 12 101) (.decimal 28315 (-2)), .ofValue (.element 1 15) (.text "Ams")], #[]⟩,
    ⟨#[.missing (.element 12 101), .ofValue (.element 1 15) (.text "Bru")], #[]⟩]

theorem decode_of_encode_stationBulletin :
    decode .station [66, 85, 70, 82, 0, 0, 64, 3, 0, 0, 18, 0, 0, 0, 0, 128, 0, 0, 13, 0, 100, 11, 0,
      0, 0, 0, 0, 0, 8, 0, 1, 2, 3, 0, 0, 0, 12, 0, 0, 2, 128, 12, 101, 1, 15, 0, 0, 0, 14, 0, 110,
      155, 65, 109, 115, 255, 255, 66, 114, 117, 55, 55, 55, 55] = .ok (stationBulletin 3).inEdition3 ∧
    decode .station [66, 85, 70, 82, 0, 0, 66, 4, 0, 0, 22, 0, 0, 0, 0, 0, 0, 128, 0, 0, 7, 13, 0, 7,
      208, 11, 0, 0, 0, 30, 0, 0, 7, 0, 1, 2, 3, 0, 0, 11, 0, 0, 2, 128, 12, 101, 1, 15, 0, 0, 14, 0,
      110, 155, 65, 109, 115, 255, 255, 66, 114, 117, 55, 55, 55, 55] = .ok (stationBulletin 4) := by
  have narrow (edition : UInt8) : ∀ d ∈ (stationBulletin edition).descriptors, d.f ≤ 3 ∧ d.x ≤ 63 := by
    simp only [stationBulletin]
    decide
  have expanded : Template.expand .station [.element 12 101, .element 1 15] =
      .ok ⟨#[.element (.element 12 101), .element (.element 1 15)]⟩ := by decide +kernel
  have written : encodeSubsets .station ⟨#[.element (.element 12 101), .element (.element 1 15)]⟩
      (stationBulletin 4).subsets = .ok [110, 155, 65, 109, 115, 255, 255, 66, 114, 117] := by
    decide +kernel
  have survive : decodeSubsets .station ⟨#[.element (.element 12 101), .element (.element 1 15)]⟩
      [110, 155, 65, 109, 115, 255, 255, 66, 114, 117] 2 = .ok (stationBulletin 4).subsets := by
    decide +kernel
  constructor
  · exact (@decode_of_encode .station (stationBulletin 3) _ _ _ (by decide +kernel) (narrow 3) expanded
      written survive).2 rfl (by decide) (by decide)
  · exact (@decode_of_encode .station (stationBulletin 4) _ _ _ (by decide +kernel) (narrow 4) expanded
      written survive).1 rfl

end Bulletin

end Bufr
