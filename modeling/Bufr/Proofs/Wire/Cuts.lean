import Bufr.Proofs.Coding.Operators
import Bufr.Proofs.Wire.Fronts
import Bufr.Stream

/-!
A bulletin that is cut somewhere. Its sections end where their own lengths say, and the length that the
whole bulletin declares is only compared with the octets there are.
-/

namespace Bufr

open Input (Delimits Ensures Spans)

variable {octets front back rest : Octets} {header : Header} {section4 : DataSection}

namespace Input

theorem unless_throw_eq_ok_iff {β : Type} {c : Prop} [Decidable c] {e : Error}
    {more : Unit → Input β} {octets : Octets} {found : β × Octets} :
    (if c then throw e >>= more else more ()) octets = .ok found ↔ ¬c ∧ more () octets = .ok found := by
  split
  next holds => exact ⟨nofun, fun ⟨fails, _⟩ => absurd holds fails⟩
  next fails => exact (and_iff_right fails).symm

theorem octet_eq_ok_iff {octet : UInt8} :
    Input.octet octets = .ok (octet, rest) ↔ octets = octet :: rest := by
  constructor
  · intro found
    obtain ⟨⟨number, behind⟩, readNumber, ⟨⟩⟩ := Bufr.bind_eq_ok.1 found
    obtain ⟨⟨digits, behind⟩, readDigits, ⟨⟩⟩ := Bufr.bind_eq_ok.1 readNumber
    obtain ⟨one, rfl⟩ := octets_eq_ok_iff.1 readDigits
    obtain ⟨digit, rfl⟩ := List.length_eq_one_iff.1 one
    simp [Octets.toNat]
  · rintro rfl
    exact Reads.octet octet rest

end Input

theorem Indicator.declaredLength_of_read {indicator : Indicator}
    (found : read octets = .ok (indicator, rest)) :
    Stream.declaredLength octets = indicator.totalLength := by
  obtain ⟨⟨marked, behind⟩, readMark, readRest⟩ := bind_eq_ok.1 found
  obtain ⟨long, rfl⟩ := Input.octets_eq_ok_iff.1 readMark
  obtain ⟨-, readRest⟩ := Input.unless_throw_eq_ok_iff.1 readRest
  obtain ⟨⟨total, behind⟩, readLength, readEdition⟩ := bind_eq_ok.1 readRest
  obtain ⟨⟨digits, behind⟩, readDigits, ⟨⟩⟩ := bind_eq_ok.1 readLength
  obtain ⟨three, rfl⟩ := Input.octets_eq_ok_iff.1 readDigits
  obtain ⟨⟨edition, behind⟩, -, ⟨⟩⟩ := bind_eq_ok.1 readEdition
  rw [Stream.declaredLength, List.drop_left' long, List.take_left' three]

theorem Header.declaredLength_of_read (found : read octets = .ok (header, rest)) :
    Stream.declaredLength octets = header.indicator.totalLength := by
  obtain ⟨⟨indicator, behind⟩, readIndicator, readRest⟩ := bind_eq_ok.1 found
  obtain ⟨⟨identification, behind⟩, -, readRest⟩ := bind_eq_ok.1 readRest
  obtain ⟨⟨optional, behind⟩, -, readRest⟩ := bind_eq_ok.1 readRest
  obtain ⟨⟨description, behind⟩, -, ⟨⟩⟩ := bind_eq_ok.1 readRest
  exact Indicator.declaredLength_of_read readIndicator

theorem DataSection.ensures_read :
    Ensures read fun taken section4 => taken = section4.sectionLength :=
  (Section.ensures_readContent _ _).mono fun _ _ ⟨_, made⟩ => made ▸ rfl

/-! ## The end section -/

namespace EndSection

def Strays (edition : UInt8) (stray : Octets) : Prop :=
  stray = [] ∨ edition = 3 ∧ stray = [0]

theorem strays_of_read {edition : UInt8} (found : read edition octets = .ok ((), rest)) :
    ∃ stray, Strays edition stray ∧ octets = stray ++ mark ++ rest := by
  have whole {octets : Octets}
      (found : (do if (← Input.octets 4) ≠ mark then throw .invalidEnd : Input Unit) octets =
        .ok ((), rest)) : octets = mark ++ rest := by
    obtain ⟨⟨four, behind⟩, readFour, last⟩ := bind_eq_ok.1 found
    obtain ⟨-, rfl⟩ := Input.octets_eq_ok_iff.1 readFour
    simp only at last
    split at last
    · cases last
    next same =>
      cases last
      rw [Decidable.not_not.1 same]
  unfold read at found
  split at found
  next third =>
    obtain ⟨⟨first, behind⟩, readFirst, readRest⟩ := bind_eq_ok.1 found
    cases Input.octet_eq_ok_iff.1 readFirst
    simp only at readRest
    split at readRest
    next digit =>
      obtain ⟨⟨three, behind⟩, readThree, last⟩ := bind_eq_ok.1 readRest
      obtain ⟨-, rfl⟩ := Input.octets_eq_ok_iff.1 readThree
      obtain ⟨same, ⟨⟩⟩ := Input.unless_throw_eq_ok_iff.1 last
      refine ⟨[], .inl rfl, ?_⟩
      rw [digit, Decidable.not_not.1 same]
      rfl
    next =>
      obtain ⟨zero, last⟩ := Input.unless_throw_eq_ok_iff.1 readRest
      rw [Decidable.not_not.1 zero, whole last]
      exact ⟨[0], .inr ⟨third, rfl⟩, rfl⟩
  next => exact ⟨[], .inl rfl, whole found⟩

end EndSection

namespace Bulletin

variable {resolver : Resolver} {bulletin : Bulletin} {available : Nat}

def readBehind (header : Header) : Input (Header × DataSection) := do
  let data ← DataSection.read
  EndSection.read header.indicator.edition
  return (header, data)

theorem delimits_readBehind (header : Header) : Delimits (readBehind header) :=
  (Section.delimits_readContent _ _).bind fun _ => (EndSection.delimits_read _).bind fun _ => .of_pure _

structure Parts (header : Header) (section4 : DataSection) (front back : Octets) : Prop where
  front : Spans Header.read front header
  back : Spans (readBehind header) back (header, section4)
  plain : header.description.isCompressed = false

theorem parts_of_readSections
    (found : readSections available octets = .ok ((header, section4), rest)) :
    ∃ front back, Parts header section4 front back ∧ octets = front ++ (back ++ rest) ∧
      header.indicator.totalLength ≤ available := by
  obtain ⟨⟨header', behind⟩, readHeader, readRest⟩ := bind_eq_ok.1 found
  obtain ⟨front, rfl, spansFront⟩ := Header.delimits_read _ _ _ readHeader
  obtain ⟨within, readRest⟩ := Input.unless_throw_eq_ok_iff.1 readRest
  obtain ⟨plain, readRest⟩ := Input.unless_throw_eq_ok_iff.1 readRest
  have same : header' = header := by
    obtain ⟨⟨data, behind⟩, -, readEnd⟩ := bind_eq_ok.1 readRest
    obtain ⟨⟨⟨⟩, behind⟩, -, ⟨⟩⟩ := bind_eq_ok.1 readEnd
    rfl
  subst same
  obtain ⟨back, rfl, spansBack⟩ := delimits_readBehind header' _ _ _ readRest
  exact ⟨front, back, ⟨spansFront, spansBack, Bool.eq_false_iff.2 plain⟩, rfl, Nat.not_lt.1 within⟩

theorem Parts.readSections_take (parts : Parts header section4 front back) (rest : Octets)
    (available count : Nat) :
    readSections available ((front ++ (back ++ rest)).take count) =
      if count < front.length then .error .endOfInput
      else if available < header.indicator.totalLength then
        .error (.cutBulletin header.indicator.totalLength available)
      else if count < front.length + back.length then .error .endOfInput
      else .ok ((header, section4), rest.take (count - front.length - back.length)) := by
  -- Three places to be cut: in the header, short of the declared end, and in the sections behind.
  by_cases inHeader : count < front.length
  · rw [if_pos inHeader, List.take_append_of_le_length (Nat.le_of_lt inHeader)]
    show (Header.read _ >>= _) = _
    rw [parts.front.short count inHeader]
    rfl
  rw [if_neg inHeader, List.take_append, List.take_of_length_le (Nat.not_lt.1 inHeader)]
  show (Header.read _ >>= _) = _
  rw [parts.front.reads, ok_bind]
  by_cases beyond : available < header.indicator.totalLength
  · simp only [beyond, if_true]
    rfl
  simp only [beyond, parts.plain, Bool.false_eq_true, if_false]
  show readBehind header _ = _
  by_cases inBack : count < front.length + back.length
  · have lacking : count - front.length < back.length := by omega
    rw [if_pos inBack, List.take_append_of_le_length (Nat.le_of_lt lacking)]
    exact parts.back.short _ lacking
  · have all : back.length ≤ count - front.length := by omega
    rw [if_neg inBack, List.take_append, List.take_of_length_le all]
    exact parts.back.reads _

theorem Parts.length_front (parts : Parts header section4 front back) : front.length = header.extent := by
  obtain ⟨taken, split, extent, -⟩ := Header.ensures_read _ _ _ (parts.front.reads [])
  rw [List.append_nil, List.append_nil] at split
  rw [split, extent]

theorem Parts.back_eq (parts : Parts header section4 front back) :
    ∃ data stray, data.length = section4.sectionLength ∧
      EndSection.Strays header.indicator.edition stray ∧ back = data ++ stray ++ EndSection.mark := by
  obtain ⟨⟨data, behind⟩, readData, readEnd⟩ := bind_eq_ok.1 (parts.back.reads [])
  obtain ⟨⟨⟨⟩, rest⟩, readEnd, ⟨⟩⟩ := bind_eq_ok.1 readEnd
  obtain ⟨taken, split, long⟩ := DataSection.ensures_read _ _ _ readData
  obtain ⟨stray, strays, rfl⟩ := EndSection.strays_of_read readEnd
  refine ⟨taken, stray, long, strays, ?_⟩
  simpa only [List.append_nil, List.append_assoc] using split

/-! ## The content -/

def contentOf (resolver : Resolver) (header : Header) (section4 : DataSection) :
    Except Error Bulletin := do
  let template ← Template.expand resolver header.description.descriptors
  let subsets ←
    decodeSubsets resolver template section4.data header.description.subsetCount.toNat
  return {
    edition := header.indicator.edition
    identity := header.identification.identity
    optional := header.optional.map (·.content)
    isObserved := header.description.isObserved
    descriptors := header.description.descriptors
    subsets }

theorem decode_eq (resolver : Resolver) (octets : Octets) :
    decode resolver octets =
      readSections octets.length octets >>= fun (found, _) => contentOf resolver found.1 found.2 := rfl

theorem Parts.decode_truncated (parts : Parts header section4 front back) (resolver : Resolver)
    (rest : Octets) {count : Nat} (inside : count ≤ (front ++ (back ++ rest)).length)
    (cut : count < header.indicator.totalLength ∨ count < front.length + back.length) :
    ∃ e, decode resolver ((front ++ (back ++ rest)).take count) = .error e ∧
      e.kind = .truncated := by
  rw [decode_eq, List.length_take_of_le inside, parts.readSections_take]
  split
  · exact ⟨_, rfl, rfl⟩
  split
  · exact ⟨_, rfl, rfl⟩
  rw [if_pos (by omega)]
  exact ⟨_, rfl, rfl⟩

/-- Cut behind its declared end and behind its sections a bulletin stays the same, and cut in front of
one of the two ends it is truncated. Nothing says that the declared end is the later one. -/
theorem decode_take (decoded : decode resolver octets = .ok bulletin) :
    ∃ (header : Header) (section4 : DataSection) (sections stray rest : Octets),
      readSections octets.length octets = .ok ((header, section4), rest) ∧
      header.indicator.totalLength = Stream.declaredLength octets ∧
      Stream.declaredLength octets ≤ octets.length ∧
      sections.length = header.extent + section4.sectionLength ∧
      EndSection.Strays header.indicator.edition stray ∧
      octets = sections ++ stray ++ EndSection.mark ++ rest ∧
      ∀ count ≤ octets.length,
        (Stream.declaredLength octets ≤ count → octets.length ≤ count + rest.length →
          decode resolver (octets.take count) = .ok bulletin) ∧
        (count < Stream.declaredLength octets ∨ count + rest.length < octets.length →
          ∃ e, decode resolver (octets.take count) = .error e ∧ e.kind = .truncated) := by
  obtain ⟨⟨⟨header, section4⟩, rest⟩, found, content⟩ := bind_eq_ok.1 decoded
  obtain ⟨front, back, parts, rfl, within⟩ := parts_of_readSections found
  obtain ⟨data, stray, long, strays, split⟩ := parts.back_eq
  have declared := Header.declaredLength_of_read (parts.front.reads (back ++ rest))
  refine ⟨header, section4, front ++ data, stray, rest, found, declared.symm, ?_, ?_, strays, ?_,
    fun count inside => ⟨fun behindDeclared behindSections => ?_, fun cut => ?_⟩⟩
  · rw [declared]
    exact within
  · rw [List.length_append, parts.length_front, long]
  · simp only [split, List.append_assoc]
  · rw [declared] at behindDeclared
    rw [List.length_append, List.length_append] at behindSections
    have taken := parts.readSections_take rest count count
    rw [if_neg (by omega), if_neg (by omega), if_neg (by omega)] at taken
    rw [decode_eq, List.length_take_of_le inside, taken]
    exact content
  · rw [declared, List.length_append, List.length_append] at cut
    exact parts.decode_truncated resolver rest inside (by omega)

def understated : Octets :=
  [66, 85, 70, 82, 0, 0, 45, 4, 0, 0, 22, 0, 0, 0, 0, 0, 0, 0, 0, 0, 0, 13, 0, 7, 208, 11, 0, 0, 0, 0,
    0, 0, 9, 0, 0, 1, 128, 12, 101, 0, 0, 6, 0, 106, 179, 55, 55, 55, 55]

def understatedBulletin : Bulletin where
  edition := 4
  identity := { blankIdentity with year := 2000, month := 11 }
  optional := none
  isObserved := true
  descriptors := [.element 12 101]
  subsets := [⟨#[.ofValue (.element 12 101) (.decimal 27315 (-2))], #[]⟩]

theorem decode_take_understated :
    decode .station understated = .ok understatedBulletin ∧
      Stream.declaredLength understated = 45 ∧
      ∃ e, decode .station (understated.take 45) = .error e ∧ e.kind = .truncated := by
  have decoded : decode .station understated = .ok understatedBulletin := by decide +kernel
  have nothingLeft : (readSections understated.length understated).map (·.2) = .ok [] := by
    decide +kernel
  obtain ⟨header, section4, sections, stray, rest, found, -, -, -, -, -, cuts⟩ := decode_take decoded
  rw [found] at nothingLeft
  cases nothingLeft
  exact ⟨decoded, rfl, (cuts 45 (by decide)).2 (.inr (by decide))⟩

/-- The end section is found behind the declared end. -/
theorem not_always_within_declared :
    ¬∀ (resolver : Resolver) (octets : Octets) (bulletin : Bulletin),
      decode resolver octets = .ok bulletin →
      Stream.declaredLength octets ≤ octets.length ∧
        decode resolver (octets.take (Stream.declaredLength octets)) = .ok bulletin := by
  intro always
  obtain ⟨-, within⟩ := always .station understated understatedBulletin (by decide +kernel)
  revert within
  decide +kernel

end Bulletin

end Bufr
