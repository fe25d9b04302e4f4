import Bufr.Proofs.Wire.Extents
import Bufr.Proofs.Wire.Sections

/-!
A header is read as it was written, with the lengths its sections came to have.
-/

namespace Bufr

open Input (Reads)

theorem Input.Ensures.of_reads {α : Type} {input : Input α} {P : Nat → α → Prop} {front : Octets}
    {a : α} (ensures : Ensures input P) (reads : Reads input front a) : P front.length a := by
  obtain ⟨taken, split, holds⟩ := ensures _ _ _ (reads [])
  rw [List.append_nil, List.append_nil] at split
  rwa [split]

inductive Identification.Refused (edition : UInt8) (identification : Identification) :
    Error → Prop where
  | edition (notThird : edition ≠ 3) (notFourth : edition ≠ 4) :
      Refused edition identification (.unsupportedEdition edition)
  | subCentre (third : edition = 3) (wide : 255 < identification.identity.subCentre.toNat) :
      Refused edition identification (.wideSubCentre identification.identity.subCentre)
  | centre (third : edition = 3) (wide : 255 < identification.identity.centre.toNat) :
      Refused edition identification (.wideCentre identification.identity.centre)
  | length (long : Octets.maxLength < (identification.received edition).sectionLength) :
      Refused edition identification (.longSection (identification.received edition).sectionLength)

namespace Identification

variable {edition : UInt8} {identification : Identification} {octets : Octets} {e : Error}

theorem refused_of_octets (failed : identification.octets edition = .error e) :
    Refused edition identification e := by
  unfold Identification.octets at failed
  split at failed
  next third =>
    subst third
    unfold octets3 at failed
    simp only at failed
    split at failed
    next wide =>
      cases failed
      exact .subCentre rfl wide
    next =>
      split at failed
      next wide =>
        cases failed
        exact .centre rfl wide
      next =>
        obtain ⟨long, rfl⟩ := (Section.ofBody_eq_error_iff 17 rfl).1 failed
        exact .length long
  next notThird =>
    split at failed
    next fourth =>
      subst fourth
      obtain ⟨long, rfl⟩ := (Section.ofBody_eq_error_iff 22 rfl).1 failed
      exact .length long
    next notFourth =>
      cases failed
      exact .edition notThird notFourth

theorem not_refused (written : identification.octets edition = .ok octets) :
    ¬Refused edition identification e := by
  rcases octets_eq_ok written with ⟨rfl, written⟩ | ⟨rfl, written⟩
  · obtain ⟨narrowSub, narrow, written⟩ := octets3_eq_ok written
    obtain ⟨short, -⟩ := (Section.ofBody_eq_ok_iff 17 rfl).1 written
    rintro (⟨notThird, -⟩ | ⟨-, wide⟩ | ⟨-, wide⟩ | long)
    · exact notThird rfl
    · exact narrowSub wide
    · exact narrow wide
    · exact Nat.not_le.2 long short
  · obtain ⟨short, -⟩ := (Section.ofBody_eq_ok_iff 22 rfl).1 written
    rintro (⟨-, notFourth⟩ | ⟨⟨⟩, -⟩ | ⟨⟨⟩, -⟩ | long)
    · exact notFourth rfl
    · exact Nat.not_le.2 long short

theorem edition_of_octets (written : identification.octets edition = .ok octets) :
    edition = 3 ∨ edition = 4 :=
  (octets_eq_ok written).imp And.left And.left

end Identification

theorem OptionalSection.octets_eq_error_iff {edition : UInt8} {section2 : OptionalSection}
    {e : Error} :
    section2.octets edition = .error e ↔
      Octets.maxLength < (section2.received edition).sectionLength ∧
      e = .longSection (section2.received edition).sectionLength :=
  @Section.ofBody_eq_error_iff (Section.isEven edition) [0] section2.content e 4 rfl

theorem Description.octets_eq_error_iff {edition : UInt8} {description : Description} {e : Error} :
    description.octets edition = .error e ↔
      Octets.maxLength < (description.received edition).sectionLength ∧
      e = .longSection (description.received edition).sectionLength :=
  Section.ofBody_eq_error_iff 7 rfl

namespace Header

variable {header : Header} {octets section1 section2 section3 : Octets} {e : Error}

def flagged (header : Header) : Identification :=
  { header.identification with hasOptional := header.optional.isSome }

structure Sections (header : Header) (section1 section2 section3 octets : Octets) : Prop where
  identificationOk : header.flagged.octets header.indicator.edition = .ok section1
  optionalOk : optionalOctets header.indicator.edition header.optional = .ok section2
  descriptionOk : header.description.octets header.indicator.edition = .ok section3
  whole : ∃ section0, header.indicator.octets = .ok section0 ∧
    octets = section0 ++ (section1 ++ section2 ++ section3)

theorem sections_of_octets (written : header.octets = .ok octets) :
    ∃ section1 section2 section3, header.Sections section1 section2 section3 octets := by
  obtain ⟨section0, indicatorOk, written⟩ := bind_eq_ok.1 written
  obtain ⟨body, bodyOk, written⟩ := bind_eq_ok.1 written
  obtain ⟨section1, identificationOk, bodyOk⟩ := bind_eq_ok.1 bodyOk
  obtain ⟨section2, optionalOk, bodyOk⟩ := bind_eq_ok.1 bodyOk
  obtain ⟨section3, descriptionOk, bodyOk⟩ := bind_eq_ok.1 bodyOk
  cases bodyOk
  cases written
  exact ⟨section1, section2, section3, identificationOk, optionalOk, descriptionOk, section0,
    indicatorOk, rfl⟩

/-! ## What is read -/

def received (header : Header) : Header where
  indicator := header.indicator
  identification := header.flagged.received header.indicator.edition
  optional := header.optional.map (·.received header.indicator.edition)
  description := header.description.received header.indicator.edition

theorem reads_optional {edition : UInt8} {optional : Option OptionalSection}
    (written : optionalOctets edition optional = .ok octets) :
    Reads (readOptional optional.isSome) octets (optional.map (·.received edition)) := by
  cases optional with
  | none =>
      cases written
      exact .of_pure none
  | some section2 => exact (OptionalSection.reads written).bind_pure

theorem Sections.reads (sections : header.Sections section1 section2 section3 octets)
    (narrow : ∀ d ∈ header.description.descriptors, d.f ≤ 3 ∧ d.x ≤ 63) :
    Reads read octets header.received := by
  obtain ⟨section0, indicatorOk, rfl⟩ := sections.whole
  rw [List.append_assoc]
  refine (Indicator.reads indicatorOk).bind ((Identification.reads sections.identificationOk).bind ?_)
  exact (reads_optional sections.optionalOk).bind
    (Description.reads narrow sections.descriptionOk).bind_pure

theorem reads (narrow : ∀ d ∈ header.description.descriptors, d.f ≤ 3 ∧ d.x ≤ 63)
    (written : header.octets = .ok octets) : Reads read octets header.received := by
  obtain ⟨section1, section2, section3, sections⟩ := sections_of_octets written
  exact sections.reads narrow

theorem Sections.lengths (sections : header.Sections section1 section2 section3 octets)
    (narrow : ∀ d ∈ header.description.descriptors, d.f ≤ 3 ∧ d.x ≤ 63) :
    section1.length = header.received.identification.sectionLength ∧
    section2.length = optionalLength header.received.optional ∧
    section3.length = header.received.description.sectionLength :=
  ⟨((Identification.ensures_read _).of_reads (Identification.reads sections.identificationOk)).1,
    ((ensures_readOptional _).of_reads (reads_optional sections.optionalOk)).1,
    (Description.ensures_read.of_reads (Description.reads narrow sections.descriptionOk)).1⟩

def inEdition4 (header : Header) : Header where
  indicator := header.indicator
  identification :=
    { header.identification with
      sectionLength := 22 + header.identification.localUse.length
      hasOptional := header.optional.isSome }
  optional := header.optional.map fun section2 =>
    { section2 with sectionLength := 4 + section2.content.length }
  description :=
    { header.description with sectionLength := 7 + 2 * header.description.descriptors.length }

def inEdition3 (header : Header) : Header where
  indicator := header.indicator
  identification :=
    let localUse := Section.filled true 17 header.identification.localUse
    { sectionLength := 17 + localUse.length
      identity := { header.identification.identity with localSubCategory := 0, second := 0 }
      hasOptional := header.optional.isSome
      localUse }
  optional := header.optional.map fun section2 =>
    let content := Section.filled true 4 section2.content
    { sectionLength := 4 + content.length, content }
  description :=
    { header.description with sectionLength := 8 + 2 * header.description.descriptors.length }

theorem received_of_edition4 (fourth : header.indicator.edition = 4) :
    header.received = header.inEdition4 := by
  have odd : Section.isEven 4 = false := rfl
  have front : Identification.front 4 = 22 := rfl
  unfold received inEdition4
  simp only [fourth, Identification.received, OptionalSection.received, Description.received, odd,
    front, Section.filled_false, Octets.length_ofDescriptors]
  rfl

theorem received_of_edition3 (third : header.indicator.edition = 3)
    (first : 1951 ≤ header.identification.identity.year.toNat)
    (last : header.identification.identity.year.toNat ≤ 2050) :
    header.received = header.inEdition3 := by
  have even : Section.isEven 3 = true := rfl
  have front : Identification.front 3 = 17 := rfl
  have same_identity : identityIn 3 header.flagged.identity =
      { header.identification.identity with localSubCategory := 0, second := 0 } := by
    show header.identification.identity.inEdition3 = _
    rw [Identity.inEdition3, Identification.fullYear_yearOfCentury first last]
  have length : 7 + (Section.filled true 7
      (header.description.descriptors.flatMap Octets.ofDescriptor)).length =
        8 + 2 * header.description.descriptors.length := by
    rw [Section.filled, List.length_append, Section.length_filling_eq_mod,
      Octets.length_ofDescriptors]
    omega
  unfold received inEdition3
  simp only [third, Identification.received, OptionalSection.received, Description.received, even,
    front, same_identity, length]
  rfl

/-! ## What is not written -/

inductive Refused (header : Header) : Error → Prop where
  | total (long : Octets.maxLength < header.indicator.totalLength) :
      Refused header (.longSection header.indicator.totalLength)
  | identification {e : Error}
      (refused : header.flagged.Refused header.indicator.edition e) : Refused header e
  | optional
      (long : Octets.maxLength < optionalLength header.received.optional) :
      Refused header (.longSection (optionalLength header.received.optional))
  | description (long : Octets.maxLength < header.received.description.sectionLength) :
      Refused header (.longSection header.received.description.sectionLength)

theorem Refused.kind (refused : header.Refused e) : e.kind = .consistency := by
  rcases refused with - | refused | - | -
  · rfl
  · cases refused <;> rfl
  · rfl
  · rfl

theorem optionalOctets_eq_error_iff :
    optionalOctets header.indicator.edition header.optional = .error e ↔
      Octets.maxLength < optionalLength header.received.optional ∧
      e = .longSection (optionalLength header.received.optional) := by
  unfold received
  cases header.optional with
  | none => exact ⟨nofun, fun ⟨long, _⟩ => absurd long (Nat.not_lt_zero _)⟩
  | some section2 => exact OptionalSection.octets_eq_error_iff

theorem refused_of_octets (failed : header.octets = .error e) : header.Refused e := by
  rcases bind_eq_error_iff.1 failed with failed | ⟨section0, -, failed⟩
  · obtain ⟨long, rfl⟩ := Indicator.octets_eq_error_iff.1 failed
    exact .total long
  rcases bind_eq_error_iff.1 failed with failed | ⟨body, -, ⟨⟩⟩
  rcases bind_eq_error_iff.1 failed with failed | ⟨section1, -, failed⟩
  · exact .identification (Identification.refused_of_octets failed)
  rcases bind_eq_error_iff.1 failed with failed | ⟨section2, -, failed⟩
  · obtain ⟨long, rfl⟩ := optionalOctets_eq_error_iff.1 failed
    exact .optional long
  rcases bind_eq_error_iff.1 failed with failed | ⟨section3, -, ⟨⟩⟩
  obtain ⟨long, rfl⟩ := Description.octets_eq_error_iff.1 failed
  exact .description long

theorem not_refused (written : header.octets = .ok octets) : ¬header.Refused e := by
  obtain ⟨section1, section2, section3, sections⟩ := sections_of_octets written
  obtain ⟨section0, indicatorOk, -⟩ := sections.whole
  rintro (long | refused | long | long)
  · exact Nat.not_le.2 long (Indicator.octets_eq_ok_iff.1 indicatorOk).1
  · exact Identification.not_refused sections.identificationOk refused
  · have failed := optionalOctets_eq_error_iff.2 ⟨long, rfl⟩
    rw [sections.optionalOk] at failed
    cases failed
  · have failed := Description.octets_eq_error_iff.2 ⟨long, rfl⟩
    rw [sections.descriptionOk] at failed
    cases failed

/-- Whatever follows a header, just its own octets are read. -/
theorem read_of_octets (header : Header) :
    (∀ octets, header.octets = .ok octets →
      (∀ d ∈ header.description.descriptors, d.f ≤ 3 ∧ d.x ≤ 63) →
      ∃ back section1 section2 section3,
        header.Sections section1 section2 section3 octets ∧
        (∀ rest, read (octets ++ rest) = .ok (back, rest)) ∧
        (header.indicator.edition = 4 ∧ back = header.inEdition4 ∨
          header.indicator.edition = 3 ∧
          (1951 ≤ header.identification.identity.year.toNat →
            header.identification.identity.year.toNat ≤ 2050 → back = header.inEdition3)) ∧
        section1.length = back.identification.sectionLength ∧
        section2.length = optionalLength back.optional ∧
        section3.length = back.description.sectionLength) ∧
    (∀ e, header.octets = .error e → e.kind = .consistency ∧ header.Refused e) ∧
    ∀ e, header.Refused e → ∃ e', header.octets = .error e' := by
  refine ⟨fun octets written narrow => ?_, fun e failed => ?_, fun e refused => ?_⟩
  · obtain ⟨section1, section2, section3, sections⟩ := sections_of_octets written
    refine ⟨header.received, section1, section2, section3, sections, sections.reads narrow, ?_,
      sections.lengths narrow⟩
    rcases Identification.edition_of_octets sections.identificationOk with third | fourth
    · exact .inr ⟨third, received_of_edition3 third⟩
    · exact .inl ⟨fourth, received_of_edition4 fourth⟩
  · have refused := refused_of_octets failed
    exact ⟨refused.kind, refused⟩
  · cases written : header.octets with
    | error e' => exact ⟨e', rfl⟩
    | ok octets => exact absurd refused (not_refused written)

def stationHeader (edition : UInt8) : Header where
  indicator := ⟨60, edition⟩
  identification := ⟨0, ⟨0, 98, 0, 0, 2, 4, 7, 13, 0, 2000, 11, 5, 12, 30, 15⟩, false, [171, 205]⟩
  optional := some ⟨0, [1, 2, 3]⟩
  description := ⟨0, 2, true, false, [.sequence 1 1, .element 12 101]⟩

theorem read_of_octets_stationHeader :
    read ([66, 85, 70, 82, 0, 0, 60, 3, 0, 0, 20, 0, 0, 98, 0, 128, 2, 4, 13, 0, 100, 11, 5, 12, 30,
      171, 205, 0, 0, 0, 8, 0, 1, 2, 3, 0, 0, 0, 12, 0, 0, 2, 128, 193, 1, 12, 101, 0] ++ [55, 55]) =
        .ok ((stationHeader 3).inEdition3, [55, 55]) ∧
    read ([66, 85, 70, 82, 0, 0, 60, 4, 0, 0, 24, 0, 0, 98, 0, 0, 0, 128, 2, 4, 7, 13, 0, 7, 208, 11, 5,
      12, 30, 15, 171, 205, 0, 0, 7, 0, 1, 2, 3, 0, 0, 11, 0, 0, 2, 128, 193, 1, 12, 101] ++ [55, 55]) =
        .ok ((stationHeader 4).inEdition4, [55, 55]) := by
  have third {octets : Octets} (written : (stationHeader 3).octets = .ok octets) :
      read (octets ++ [55, 55]) = .ok ((stationHeader 3).inEdition3, [55, 55]) := by
    obtain ⟨back, _, _, _, -, reads, ⟨⟨⟩, -⟩ | ⟨-, same⟩, -⟩ :=
      (read_of_octets (stationHeader 3)).1 octets written (by decide)
    rw [← same (by decide) (by decide)]
    exact reads [55, 55]
  have fourth {octets : Octets} (written : (stationHeader 4).octets = .ok octets) :
      read (octets ++ [55, 55]) = .ok ((stationHeader 4).inEdition4, [55, 55]) := by
    obtain ⟨back, _, _, _, -, reads, ⟨-, same⟩ | ⟨⟨⟩, -⟩, -⟩ :=
      (read_of_octets (stationHeader 4)).1 octets written (by decide)
    rw [← same]
    exact reads [55, 55]
  exact ⟨third (by decide +kernel), fourth (by decide +kernel)⟩

end Header

end Bufr
