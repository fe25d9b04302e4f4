import Bufr.Proofs.Wire.Bulletin
import Bufr.Proofs.Wire.Cuts

/-!
What is written says how long it is. The sections of an encoded bulletin stand one behind the other,
each as long as it declares, from the indicator to the end section, and no part in front of the last
octet can be taken for the whole.
-/

namespace Bufr

namespace Section

structure IsWhole (even : Bool) (octets : Octets) : Prop where
  long : 3 ≤ octets.length
  declared : Octets.toNat (octets.take 3) = octets.length
  balanced : even → octets.length % 2 = 0

variable {even : Bool} {body octets : Octets}

theorem isWhole_of_ofBody (written : ofBody even body = .ok octets) : IsWhole even octets := by
  have written : ofBody even ([] ++ body) = .ok octets := written
  obtain ⟨short, rfl⟩ := (ofBody_eq_ok_iff 3 rfl).1 written
  have length : (Octets.ofNat 3 (3 + (filled even 3 body).length) ++
      ([] ++ filled even 3 body)).length = 3 + (filled even 3 body).length := by
    rw [List.length_append, Octets.length_ofNat, List.nil_append]
  refine ⟨?_, ?_, fun isEven => ?_⟩
  · rw [length]
    exact Nat.le_add_right 3 _
  · rw [length, List.take_left' (Octets.length_ofNat 3 _), Octets.toNat_ofNat,
      Nat.mod_eq_of_lt (Octets.lt_of_le_maxLength short)]
  · rw [length, filled, List.length_append, isEven, length_filling_eq_mod]
    omega

theorem IsWhole.length_le (whole : IsWhole even octets) : octets.length ≤ Octets.maxLength := by
  have small := Octets.toNat_lt (octets.take 3)
  rw [whole.declared, List.length_take_of_le whole.long] at small
  exact Nat.le_of_lt_succ small

end Section

namespace Identification

def flagsAt (edition : UInt8) : Nat := if edition = 3 then 7 else 9

theorem flags_of_octets {edition : UInt8} {identification : Identification} {section1 : Octets}
    (written : identification.octets edition = .ok section1) :
    Section.IsWhole (Section.isEven edition) section1 ∧
      section1[flagsAt edition]? = some (Section.flags identification.hasOptional false) := by
  rcases octets_eq_ok written with ⟨rfl, written⟩ | ⟨rfl, written⟩
  · obtain ⟨-, -, written⟩ := octets3_eq_ok written
    refine ⟨Section.isWhole_of_ofBody written, ?_⟩
    obtain ⟨-, rfl⟩ := (Section.ofBody_eq_ok_iff 17 rfl).1 written
    rfl
  · refine ⟨Section.isWhole_of_ofBody written, ?_⟩
    obtain ⟨-, rfl⟩ := (Section.ofBody_eq_ok_iff 22 rfl).1 written
    rfl

def announces (edition : UInt8) (section1 : Octets) : Bool :=
  section1[flagsAt edition]?.any Section.firstFlag

end Identification

namespace Bulletin

variable {resolver : Resolver} {bulletin : Bulletin} {octets data section4 front : Octets}

structure FrontTiles (bulletin : Bulletin) (section1 section2 section3 : Octets) : Prop where
  identification : Section.IsWhole (Section.isEven bulletin.edition) section1
  announced : Identification.announces bulletin.edition section1 = bulletin.optional.isSome
  optional : if Identification.announces bulletin.edition section1 then
    Section.IsWhole (Section.isEven bulletin.edition) section2 else section2 = []
  description : Section.IsWhole (Section.isEven bulletin.edition) section3

/-- A bulletin from its mark to its end, with the sections one behind the other. -/
structure Tiles (bulletin : Bulletin) (section1 section2 section3 section4 octets : Octets) : Prop
    extends FrontTiles bulletin section1 section2 section3 where
  marked : Indicator.mark <+: octets
  ended : EndSection.mark <:+ octets
  total : Stream.declaredLength octets = octets.length
  data : Section.IsWhole true section4
  tiled : octets.drop Indicator.size =
    section1 ++ section2 ++ section3 ++ section4 ++ EndSection.mark

theorem frontTiles_of_bodyOctets (written : bulletin.header.bodyOctets = .ok front) :
    ∃ section1 section2 section3, FrontTiles bulletin section1 section2 section3 ∧
      front = section1 ++ section2 ++ section3 := by
  obtain ⟨section1, identificationOk, written⟩ := bind_eq_ok.1 written
  obtain ⟨section2, optionalOk, written⟩ := bind_eq_ok.1 written
  obtain ⟨section3, descriptionOk, written⟩ := bind_eq_ok.1 written
  cases written
  obtain ⟨whole, flags⟩ := Identification.flags_of_octets identificationOk
  have announced : Identification.announces bulletin.edition section1 = bulletin.optional.isSome := by
    have optional : bulletin.header.optional.isSome = bulletin.optional.isSome := Option.isSome_map
    have flags : section1[Identification.flagsAt bulletin.edition]? = _ := flags
    rw [Identification.announces, flags, Option.any_some, Section.firstFlag_flags]
    exact optional
  refine ⟨section1, section2, section3,
    ⟨whole, announced, ?_, Section.isWhole_of_ofBody descriptionOk⟩, rfl⟩
  have optionalOk : Header.optionalOctets bulletin.edition
      (bulletin.optional.map fun content => ⟨0, content⟩) = .ok section2 := optionalOk
  rw [announced]
  cases present : bulletin.optional with
  | none =>
      rw [present] at optionalOk
      cases optionalOk
      rfl
  | some content =>
      rw [present] at optionalOk
      exact Section.isWhole_of_ofBody optionalOk

theorem FrontTiles.length_le {section1 section2 section3 : Octets}
    (tiles : FrontTiles bulletin section1 section2 section3) :
    (section1 ++ section2 ++ section3).length ≤ 3 * Octets.maxLength := by
  have first := tiles.identification.length_le
  have third := tiles.description.length_le
  have second : section2.length ≤ Octets.maxLength := by
    have optional := tiles.optional
    split at optional
    · exact optional.length_le
    · rw [optional]
      exact Nat.zero_le _
  rw [List.length_append, List.length_append]
  omega

theorem length_lt_of_octets (frontOk : bulletin.header.bodyOctets = .ok front)
    (dataOk : DataSection.octets data = .ok section4) :
    Indicator.size + (front ++ section4 ++ EndSection.mark).length < 2 ^ 32 := by
  obtain ⟨section1, section2, section3, tiles, same⟩ := frontTiles_of_bodyOctets frontOk
  have long := tiles.length_le
  have fourth := (Section.isWhole_of_ofBody dataOk).length_le
  have mark : EndSection.mark.length = 4 := rfl
  rw [← same] at long
  rw [List.length_append, List.length_append, mark]
  simp only [Octets.maxLength, Indicator.size] at *
  omega

theorem tiles_of_sections {section0 : Octets}
    (sections : Sections bulletin data section0 front section4 octets) :
    ∃ section1 section2 section3, Tiles bulletin section1 section2 section3 section4 octets := by
  obtain ⟨section1, section2, section3, tiles, same⟩ := frontTiles_of_bodyOctets sections.frontOk
  have size := Indicator.length_octets sections.indicatorOk
  have whole : octets = section0 ++ (front ++ section4 ++ EndSection.mark) := by
    rw [← List.append_assoc, ← List.append_assoc]
    exact sections.whole
  refine ⟨section1, section2, section3, tiles, ?_, ?_, ?_, Section.isWhole_of_ofBody sections.dataOk, ?_⟩
  · obtain ⟨-, written⟩ := Indicator.octets_eq_ok_iff.1 sections.indicatorOk
    rw [whole, written, List.append_assoc, List.append_assoc]
    exact List.prefix_append _ _
  · rw [sections.whole]
    exact List.suffix_append _ _
  · have read := Indicator.reads sections.indicatorOk (front ++ section4 ++ EndSection.mark)
    rw [← whole] at read
    exact Indicator.declaredLength_of_read read
  · rw [whole, List.drop_left' size, same]

/-! ## Every part is too short -/

def narrowed (bulletin : Bulletin) : Bulletin :=
  { bulletin with descriptors := bulletin.descriptors.map fun d => .ofCode d.code }

theorem narrow_narrowed (bulletin : Bulletin) :
    ∀ d ∈ bulletin.narrowed.descriptors, d.f ≤ 3 ∧ d.x ≤ 63 := by
  intro d mem
  obtain ⟨wide, -, rfl⟩ := List.mem_map.1 mem
  exact Descriptor.narrow_ofCode wide.code

theorem bodyOctets_narrowed (bulletin : Bulletin) :
    bulletin.narrowed.header.bodyOctets = bulletin.header.bodyOctets := by
  have same : (bulletin.descriptors.map fun d => Descriptor.ofCode d.code).flatMap
      Octets.ofDescriptor = bulletin.descriptors.flatMap Octets.ofDescriptor := by
    rw [List.flatMap_map]
    refine List.flatMap_congr fun d _ => ?_
    rw [Octets.ofDescriptor, Octets.ofDescriptor, Descriptor.code_ofCode]
  have description : bulletin.narrowed.header.description.octets bulletin.edition =
      bulletin.header.description.octets bulletin.edition := by
    unfold Description.octets
    show Section.ofBody _ (_ ++ (bulletin.descriptors.map _).flatMap _) = _
    rw [same]
    rfl
  show (do
    let section1 ← _
    let section2 ← _
    let section3 ← bulletin.narrowed.header.description.octets bulletin.edition
    return section1 ++ section2 ++ section3) = _
  rw [description]
  rfl

theorem decode_part_of_sections {section0 : Octets}
    (sections : Sections bulletin data section0 front section4 octets) (resolver : Resolver)
    {count : Nat} (less : count < octets.length) :
    ∃ e, decode resolver (octets.take count) = .error e ∧ e.kind = .truncated := by
  have narrowed : Sections bulletin.narrowed data section0 front section4 octets :=
    { sections with frontOk := (bodyOctets_narrowed bulletin).trans sections.frontOk }
  have found := reads_sections narrowed (narrow_narrowed bulletin) []
  rw [List.append_nil] at found
  obtain ⟨front, back, parts, split, -⟩ := parts_of_readSections found
  rw [List.append_nil] at split
  have inside : count < front.length + back.length := by
    rw [← List.length_append, ← split]
    exact less
  have within : count ≤ (front ++ (back ++ [])).length := by
    rw [List.append_nil, List.length_append]
    exact Nat.le_of_lt inside
  have truncated := parts.decode_truncated resolver [] within (.inr inside)
  rwa [List.append_nil, ← split] at truncated

/-! ## Whole bulletins -/

/-- An encoded bulletin says how long it is and how long its sections are. Whatever is cut off from its end
is found to be lacking. -/
theorem encode_delimits (encoded : encode resolver bulletin = .ok octets) :
    (∀ front section4 data, bulletin.header.bodyOctets = .ok front →
      DataSection.octets data = .ok section4 →
      Indicator.size + (front ++ section4 ++ EndSection.mark).length < 2 ^ 32) ∧
    (∃ section1 section2 section3 section4,
      Tiles bulletin section1 section2 section3 section4 octets) ∧
    ∀ resolver' count, count < octets.length →
      ∃ e, decode resolver' (octets.take count) = .error e ∧ e.kind = .truncated := by
  obtain ⟨template, expanded, others⟩ := bind_eq_ok.1 encoded
  obtain ⟨data, written, -⟩ := bind_eq_ok.1 others
  obtain ⟨section0, front, section4, sections⟩ := sections_of_encode encoded expanded written
  obtain ⟨section1, section2, section3, tiles⟩ := tiles_of_sections sections
  exact ⟨fun _ _ _ => length_lt_of_octets, ⟨section1, section2, section3, section4, tiles⟩,
    fun resolver' _ less => decode_part_of_sections sections resolver' less⟩

theorem encode_delimits_stationBulletin :
    ∃ octets, encode .station (stationBulletin 3) = .ok octets ∧ octets.length = 64 ∧
      (∃ section1 section2 section3 section4,
        Tiles (stationBulletin 3) section1 section2 section3 section4 octets) ∧
      ∀ count < 64, ∃ e, decode .station (octets.take count) = .error e ∧ e.kind = .truncated := by
  have encoded : encode .station (stationBulletin 3) = .ok [66, 85, 70, 82, 0, 0, 64, 3, 0, 0, 18, 0,
      0, 0, 0, 128, 0, 0, 13, 0, 100, 11, 0, 0, 0, 0, 0, 0, 8, 0, 1, 2, 3, 0, 0, 0, 12, 0, 0, 2, 128,
      12, 101, 1, 15, 0, 0, 0, 14, 0, 110, 155, 65, 109, 115, 255, 255, 66, 114, 117, 55, 55, 55,
      55] := by decide +kernel
  obtain ⟨-, tiles, cuts⟩ := encode_delimits encoded
  exact ⟨_, encoded, rfl, tiles, cuts .station⟩

end Bulletin

end Bufr
