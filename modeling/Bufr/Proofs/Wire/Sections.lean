import Bufr.Header
import Bufr.Proofs.Wire.Reads
import Bufr.Section.Data

/-!
Each section is read as it was written, up to its own length and what fills it up.
-/

namespace Bufr

open Input (Reads)

theorem Octets.length_ofWord (word : UInt16) : (ofWord word).length = 2 := length_ofNat 2 _

theorem Octets.length_ofDescriptors (ds : List Descriptor) :
    (ds.flatMap ofDescriptor).length = 2 * ds.length := by
  induction ds with
  | nil => rfl
  | cons d ds ih =>
      rw [List.flatMap_cons, List.length_append, ih, ofDescriptor, length_ofWord, List.length_cons]
      omega

namespace Octets

theorem ofLength_eq_ok_iff {length : Nat} {octets : Octets} :
    ofLength length = .ok octets ↔ length ≤ maxLength ∧ octets = ofNat 3 length := by
  unfold ofLength
  split
  next long => exact ⟨nofun, fun ⟨short, _⟩ => absurd short (Nat.not_le.2 long)⟩
  next short =>
    rw [Except.ok.injEq]
    exact ⟨fun same => ⟨Nat.not_lt.1 short, same.symm⟩, fun ⟨_, same⟩ => same.symm⟩

theorem ofLength_eq_error_iff {length : Nat} {e : Error} :
    ofLength length = .error e ↔ maxLength < length ∧ e = .longSection length := by
  unfold ofLength
  split
  next long =>
    rw [Except.error.injEq]
    exact ⟨fun same => ⟨long, same.symm⟩, fun ⟨_, same⟩ => same.symm⟩
  next short => exact ⟨nofun, fun ⟨long, _⟩ => absurd long short⟩

theorem lt_of_le_maxLength {length : Nat} (short : length ≤ maxLength) : length < 256 ^ 3 :=
  Nat.lt_of_le_of_lt short (by decide)

end Octets

namespace Section

variable {even : Bool} {body octets : Octets}

theorem filling_false (length : Nat) : filling false length = [] := if_neg nofun

def filled (even : Bool) (front : Nat) (content : Octets) : Octets :=
  content ++ filling even (front + content.length)

@[simp] theorem filled_false (front : Nat) (content : Octets) :
    filled false front content = content := by
  rw [filled, filling_false, List.append_nil]

theorem ofBody_append {front content : Octets} (least : Nat) (frontLength : 3 + front.length = least) :
    ofBody even (front ++ content) =
      (Octets.ofLength (least + (filled even least content).length)).map fun length =>
        length ++ (front ++ filled even least content) := by
  have long : 3 + (front ++ content).length = least + content.length := by
    rw [List.length_append]
    omega
  have total : least + content.length + (filling even (least + content.length)).length =
      least + (filled even least content).length := by
    rw [filled, List.length_append]
    omega
  simp only [ofBody, long, total, filled, List.append_assoc]
  rfl

theorem ofBody_eq_ok_iff {front content : Octets} (least : Nat)
    (frontLength : 3 + front.length = least) :
    ofBody even (front ++ content) = .ok octets ↔
      least + (filled even least content).length ≤ Octets.maxLength ∧
      octets = Octets.ofNat 3 (least + (filled even least content).length) ++
        (front ++ filled even least content) := by
  simp only [ofBody_append least frontLength, map_eq_ok_iff, Octets.ofLength_eq_ok_iff]
  constructor
  · rintro ⟨_, ⟨short, rfl⟩, rfl⟩
    exact ⟨short, rfl⟩
  · rintro ⟨short, rfl⟩
    exact ⟨_, ⟨short, rfl⟩, rfl⟩

theorem ofBody_eq_error_iff {front content : Octets} {e : Error} (least : Nat)
    (frontLength : 3 + front.length = least) :
    ofBody even (front ++ content) = .error e ↔
      Octets.maxLength < least + (filled even least content).length ∧
      e = .longSection (least + (filled even least content).length) := by
  rw [ofBody_append least frontLength, map_eq_error_iff, Octets.ofLength_eq_error_iff]

theorem length_filling_eq_mod (length : Nat) : (filling true length).length = length % 2 := by
  unfold filling
  split
  next odd => exact odd.2.symm
  next even => exact (Nat.mod_two_ne_one.1 fun odd => even ⟨rfl, odd⟩).symm

theorem exists_filling (even : Bool) (front : Nat) (content : Octets) :
    ∃ filling, filled even front content = content ++ filling ∧ filling.length ≤ 1 := by
  refine ⟨filling even (front + content.length), rfl, ?_⟩
  cases even with
  | false => exact Nat.zero_le _
  | true =>
      rw [length_filling_eq_mod]
      exact Nat.le_of_lt_succ (Nat.mod_lt _ (by decide))

theorem reads_content {α : Type} {name : Error.ShortSection} {make : Nat → Octets → α}
    {content : Octets} (written : ofBody even (0 :: content) = .ok octets) :
    Reads (readContent name make) octets
      (make (4 + (filled even 4 content).length) (filled even 4 content)) := by
  have written : ofBody even ([0] ++ content) = .ok octets := written
  obtain ⟨short, rfl⟩ := (ofBody_eq_ok_iff 4 rfl).1 written
  refine (Reads.number 3 (Octets.lt_of_le_maxLength short)).bind (.octet_bind 0 ?_)
  simp only [Nat.not_lt.2 (Nat.le_add_right 4 _), if_false]
  have rest := Reads.octets (filled even 4 content) rfl
  rw [Nat.add_sub_cancel_left]
  exact rest.bind_pure

@[simp] theorem firstFlag_flags (first second : Bool) : firstFlag (flags first second) = first := by
  cases first <;> cases second <;> rfl

@[simp] theorem secondFlag_flags (first second : Bool) :
    secondFlag (flags first second) = second := by
  cases first <;> cases second <;> rfl

end Section

def Identity.inEdition3 (identity : Identity) : Identity :=
  { identity with
    localSubCategory := 0
    year := Identification.fullYear (Identification.yearOfCentury identity.year)
    second := 0 }

def Header.identityIn (edition : UInt8) (identity : Identity) : Identity :=
  if edition = 3 then identity.inEdition3 else identity

namespace Identification

def front (edition : UInt8) : Nat := if edition = 3 then 17 else 22

def received (edition : UInt8) (identification : Identification) : Identification :=
  let localUse := Section.filled (Section.isEven edition) (front edition) identification.localUse
  { sectionLength := front edition + localUse.length
    identity := Header.identityIn edition identification.identity
    hasOptional := identification.hasOptional
    localUse }

variable {identification : Identification} {octets : Octets}

theorem octets_eq_ok {edition : UInt8} (written : identification.octets edition = .ok octets) :
    edition = 3 ∧ identification.octets3 = .ok octets ∨
      edition = 4 ∧ identification.octets4 = .ok octets := by
  unfold Identification.octets at written
  split at written
  next third => exact Or.inl ⟨third, written⟩
  next =>
    split at written
    next fourth => exact Or.inr ⟨fourth, written⟩
    · cases written

theorem octets3_eq_ok (written : identification.octets3 = .ok octets) :
    let identity := identification.identity
    ¬255 < identity.subCentre.toNat ∧ ¬255 < identity.centre.toNat ∧
      Section.ofBody true
        ([identity.masterTable, identity.subCentre.toUInt8, identity.centre.toUInt8,
          identity.update, Section.flags identification.hasOptional false, identity.category,
          identity.internationalSubCategory, identity.masterVersion, identity.localVersion,
          yearOfCentury identity.year, identity.month, identity.day, identity.hour,
          identity.minute] ++ identification.localUse) = .ok octets := by
  unfold octets3 at written
  simp only at written
  split at written
  · cases written
  next narrowSub =>
    split at written
    · cases written
    next narrow => exact ⟨narrowSub, narrow, written⟩

theorem reads4 (written : identification.octets4 = .ok octets) :
    Reads read4 octets (identification.received 4) := by
  obtain ⟨short, rfl⟩ := (Section.ofBody_eq_ok_iff 22 rfl).1 written
  simp only [List.cons_append, List.nil_append, List.append_assoc]
  refine (Reads.number 3 (Octets.lt_of_le_maxLength short)).bind ?_
  simp only [Nat.not_lt.2 (Nat.le_add_right 22 _), if_false]
  refine .octet_bind _ <| .word_bind _ <| .word_bind _ <| .octet_bind _ <| .octet_bind _ <|
    .octet_bind _ <| .octet_bind _ <| .octet_bind _ <| .octet_bind _ <| .octet_bind _ <|
    .word_bind _ <| .octet_bind _ <| .octet_bind _ <| .octet_bind _ <| .octet_bind _ <|
    .octet_bind _ ?_
  have rest := Reads.octets (Section.filled false 22 identification.localUse) rfl
  rw [Nat.add_sub_cancel_left, Section.firstFlag_flags]
  exact rest.bind_pure

theorem toUInt16_toUInt8 {word : UInt16} (narrow : ¬255 < word.toNat) :
    word.toUInt8.toUInt16 = word := by
  apply UInt16.toNat_inj.1
  simp
  omega

theorem fullYear_yearOfCentury {year : UInt16} (first : 1951 ≤ year.toNat)
    (last : year.toNat ≤ 2050) : fullYear (yearOfCentury year) = year := by
  apply UInt16.toNat_inj.1
  unfold yearOfCentury
  split
  next century =>
    simp only [fullYear, UInt8.reduceToNat]
    simp
    omega
  next =>
    unfold fullYear
    have small : year.toNat % 100 < 2 ^ 8 := by omega
    rw [UInt8.toNat_ofNat', Nat.mod_eq_of_lt small]
    split <;> rw [UInt16.toNat_ofNat'] <;> omega

theorem reads3 (written : identification.octets3 = .ok octets) :
    Reads read3 octets (identification.received 3) := by
  obtain ⟨narrowSub, narrow, written⟩ := octets3_eq_ok written
  obtain ⟨short, rfl⟩ := (Section.ofBody_eq_ok_iff 17 rfl).1 written
  simp only [List.cons_append, List.nil_append]
  refine (Reads.number 3 (Octets.lt_of_le_maxLength short)).bind ?_
  simp only [Nat.not_lt.2 (Nat.le_add_right 17 _), if_false]
  refine .octet_bind _ <| .octet_bind _ <| .octet_bind _ <| .octet_bind _ <| .octet_bind _ <|
    .octet_bind _ <| .octet_bind _ <| .octet_bind _ <| .octet_bind _ <| .octet_bind _ <|
    .octet_bind _ <| .octet_bind _ <| .octet_bind _ <| .octet_bind _ ?_
  have rest := Reads.octets (Section.filled true 17 identification.localUse) rfl
  rw [Nat.add_sub_cancel_left, Section.firstFlag_flags, toUInt16_toUInt8 narrowSub,
    toUInt16_toUInt8 narrow]
  exact rest.bind_pure

theorem reads {edition : UInt8} (written : identification.octets edition = .ok octets) :
    Reads (read edition) octets (identification.received edition) := by
  rcases octets_eq_ok written with ⟨rfl, written⟩ | ⟨rfl, written⟩
  · exact reads3 written
  · exact reads4 written

end Identification

namespace Indicator

theorem octets_eq_ok_iff {indicator : Indicator} {octets : Octets} :
    indicator.octets = .ok octets ↔ indicator.totalLength ≤ Octets.maxLength ∧
      octets = mark ++ Octets.ofNat 3 indicator.totalLength ++ [indicator.edition] := by
  simp only [Indicator.octets, bind_eq_ok, Octets.ofLength_eq_ok_iff, pure_eq_ok]
  constructor
  · rintro ⟨_, ⟨short, rfl⟩, rfl⟩
    exact ⟨short, rfl⟩
  · rintro ⟨short, rfl⟩
    exact ⟨_, ⟨short, rfl⟩, rfl⟩

theorem octets_eq_error_iff {indicator : Indicator} {e : Error} :
    indicator.octets = .error e ↔
      Octets.maxLength < indicator.totalLength ∧ e = .longSection indicator.totalLength := by
  rw [Indicator.octets, bind_eq_error_iff, Octets.ofLength_eq_error_iff]
  exact or_iff_left nofun

theorem length_octets {indicator : Indicator} {octets : Octets}
    (written : indicator.octets = .ok octets) : octets.length = size := by
  obtain ⟨-, rfl⟩ := octets_eq_ok_iff.1 written
  rfl

theorem reads {indicator : Indicator} {octets : Octets} (written : indicator.octets = .ok octets) :
    Reads read octets indicator := by
  obtain ⟨short, rfl⟩ := octets_eq_ok_iff.1 written
  rw [List.append_assoc]
  refine (Reads.octets mark rfl).bind ?_
  rw [if_neg fun ne => ne rfl]
  exact (Reads.number 3 (Octets.lt_of_le_maxLength short)).bind (Reads.octet _).bind_pure

end Indicator

namespace OptionalSection

def received (edition : UInt8) (section2 : OptionalSection) : OptionalSection :=
  let content := Section.filled (Section.isEven edition) 4 section2.content
  { sectionLength := 4 + content.length, content }

theorem reads {edition : UInt8} {section2 : OptionalSection} {octets : Octets}
    (written : section2.octets edition = .ok octets) : Reads read octets (section2.received edition) :=
  Section.reads_content written

end OptionalSection

namespace Description

def received (edition : UInt8) (description : Description) : Description :=
  { description with
    sectionLength := 7 + (Section.filled (Section.isEven edition) 7
      (description.descriptors.flatMap Octets.ofDescriptor)).length }

theorem reads {edition : UInt8} {description : Description} {octets : Octets}
    (narrow : ∀ d ∈ description.descriptors, d.f ≤ 3 ∧ d.x ≤ 63)
    (written : description.octets edition = .ok octets) :
    Reads read octets (description.received edition) := by
  obtain ⟨short, rfl⟩ := (Section.ofBody_eq_ok_iff 7 rfl).1 written
  obtain ⟨filling, split, single⟩ := Section.exists_filling (Section.isEven edition) 7
    (description.descriptors.flatMap Octets.ofDescriptor)
  have length : (description.descriptors.flatMap Octets.ofDescriptor ++ filling).length =
      2 * description.descriptors.length + filling.length := by
    rw [List.length_append, Octets.length_ofDescriptors]
  unfold received
  rw [split, length] at short ⊢
  simp only [List.cons_append, List.nil_append, List.append_assoc]
  refine (Reads.number 3 (Octets.lt_of_le_maxLength short)).bind (.octet_bind _ ?_)
  simp only [Nat.not_lt.2 (Nat.le_add_right 7 _), if_false, Nat.add_sub_cancel_left]
  refine .word_bind _ (.octet_bind _ ?_)
  -- At most one octet is left behind the descriptors, which is never half of another one.
  have count : (2 * description.descriptors.length + filling.length) / 2 =
      description.descriptors.length := by omega
  have left : (2 * description.descriptors.length + filling.length) % 2 = filling.length := by omega
  rw [count, left, Section.firstFlag_flags, Section.secondFlag_flags]
  exact (Reads.descriptors narrow).bind (Reads.octets filling rfl).bind_pure

end Description

theorem DataSection.reads {data octets : Octets} (written : DataSection.octets data = .ok octets) :
    Reads read octets ⟨4 + (Section.filled true 4 data).length, Section.filled true 4 data⟩ :=
  Section.reads_content written

theorem EndSection.reads (edition : UInt8) : Reads (EndSection.read edition) EndSection.mark () := by
  unfold EndSection.read
  split
  next =>
    refine .octet_bind 0x37 ?_
    rw [if_pos rfl]
    refine (Reads.octets (EndSection.mark.drop 1) rfl).bind_nil ?_
    rw [if_neg fun ne => ne rfl]
    exact .of_pure ()
  next =>
    refine (Reads.octets EndSection.mark rfl).bind_nil ?_
    rw [if_neg fun ne => ne rfl]
    exact .of_pure ()

end Bufr
