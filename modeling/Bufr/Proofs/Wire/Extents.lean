import Bufr.Header
import Bufr.Proofs.Outcome

/-!
What a reader takes from the front and gives, whatever octets it is given. A section takes as many
octets as it declares.
-/

namespace Bufr

theorem Descriptor.narrow_ofCode (code : UInt16) : (ofCode code).f ≤ 3 ∧ (ofCode code).x ≤ 63 := by
  have := code.toNat_lt
  simp only [ofCode, UInt8.le_iff_toNat_le, UInt8.toNat_ofNat', UInt8.reduceToNat]
  omega

namespace Input

/-- `P` holds of how many octets were taken and of what was read from them. -/
def Ensures {α : Type} (input : Input α) (P : Nat → α → Prop) : Prop :=
  ∀ octets a rest, input octets = .ok (a, rest) →
    ∃ taken, octets = taken ++ rest ∧ P taken.length a

variable {α β : Type} {input : Input α} {f : α → Input β} {P : Nat → α → Prop}
  {Q : Nat → β → Prop}

namespace Ensures

theorem of_pure {a : α} (holds : P 0 a) : Ensures (pure a) P := by
  intro octets b rest read
  cases read
  exact ⟨[], rfl, holds⟩

theorem of_throw {e : Error} : Ensures (throw e : Input α) P := by
  intro octets a rest read
  cases read

theorem bind (first : Ensures input P)
    (second : ∀ count a, P count a → Ensures (f a) fun more b => Q (count + more) b) :
    Ensures (input >>= f) Q := by
  intro octets b rest read
  obtain ⟨⟨a, between⟩, readFirst, readSecond⟩ := bind_eq_ok.1 read
  obtain ⟨front, rfl, holds⟩ := first _ a _ readFirst
  obtain ⟨back, rfl, holds⟩ := second _ a holds _ b _ readSecond
  refine ⟨front ++ back, (List.append_assoc ..).symm, ?_⟩
  rwa [List.length_append]

theorem mono {P' : Nat → α → Prop} (ensures : Ensures input P)
    (weaker : ∀ count a, P count a → P' count a) : Ensures input P' := by
  intro octets a rest read
  obtain ⟨taken, split, holds⟩ := ensures _ a _ read
  exact ⟨taken, split, weaker _ a holds⟩

theorem map {g : α → β} (ensures : Ensures input fun count a => Q count (g a)) :
    Ensures (g <$> input) Q := by
  rw [map_eq_pure_bind]
  exact ensures.bind fun count a holds => of_pure holds

theorem unless_throw {c : Prop} [Decidable c] {e : Error} {more : Unit → Input β}
    (otherwise : ¬c → Ensures (more ()) Q) :
    Ensures (if c then throw e >>= more else more ()) Q := by
  split
  · exact of_throw.bind fun _ _ (impossible : False) => impossible.elim
  next holds => exact otherwise holds

theorem octets (count : Nat) :
    Ensures (Input.octets count) fun taken octets => taken = count ∧ octets.length = count := by
  intro octets taken rest read
  obtain ⟨long, split⟩ := octets_eq_ok_iff.1 read
  exact ⟨taken, split.symm, long, long⟩

theorem number (count : Nat) : Ensures (Input.number count) fun taken _ => taken = count :=
  (octets count).bind fun _ _ taken => of_pure taken.1

theorem octet : Ensures Input.octet fun taken _ => taken = 1 :=
  (number 1).bind fun _ _ taken => of_pure taken

theorem word : Ensures Input.word fun taken _ => taken = 2 :=
  (number 2).bind fun _ _ taken => of_pure taken

theorem descriptor : Ensures Input.descriptor fun taken d => taken = 2 ∧ d.f ≤ 3 ∧ d.x ≤ 63 :=
  word.bind fun _ code taken => of_pure ⟨taken, Descriptor.narrow_ofCode code⟩

theorem descriptorsOnto (done : List Descriptor) (narrow : ∀ d ∈ done, d.f ≤ 3 ∧ d.x ≤ 63)
    (count : Nat) :
    Ensures (Input.descriptorsOnto done count) fun taken ds =>
      taken = 2 * count ∧ ∀ d ∈ ds, d.f ≤ 3 ∧ d.x ≤ 63 := by
  induction count generalizing done with
  | zero =>
      refine of_pure ⟨rfl, ?_⟩
      simpa only [List.mem_reverse] using narrow
  | succ count ih =>
      refine descriptor.bind fun two d read => ?_
      obtain ⟨rfl, narrow_d⟩ := read
      refine (ih (d :: done) (List.forall_mem_cons.2 ⟨narrow_d, narrow⟩)).mono ?_
      rintro taken ds ⟨rfl, narrow⟩
      exact ⟨by omega, narrow⟩

theorem descriptors (count : Nat) :
    Ensures (Input.descriptors count) fun taken ds =>
      taken = 2 * count ∧ ∀ d ∈ ds, d.f ≤ 3 ∧ d.x ≤ 63 :=
  descriptorsOnto [] (List.forall_mem_nil _) count

theorem octet_bind {f : UInt8 → Input β}
    (more : ∀ octet, Ensures (f octet) fun taken b => Q (1 + taken) b) :
    Ensures (Input.octet >>= f) Q := by
  refine octet.bind ?_
  rintro _ octet rfl
  exact more octet

theorem word_bind {f : UInt16 → Input β}
    (more : ∀ word, Ensures (f word) fun taken b => Q (2 + taken) b) :
    Ensures (Input.word >>= f) Q := by
  refine word.bind ?_
  rintro _ word rfl
  exact more word

theorem length_bind {f : Nat → Input β}
    (more : ∀ length, Ensures (f length) fun taken b => Q (3 + taken) b) :
    Ensures (Input.length >>= f) Q := by
  refine (number 3).bind ?_
  rintro _ length rfl
  exact more length

theorem octets_bind {count : Nat} {f : Octets → Input β}
    (more : ∀ octets, Ensures (f octets) fun taken b => Q (count + taken) b) :
    Ensures (Input.octets count >>= f) Q := by
  refine (octets count).bind ?_
  rintro _ octets ⟨rfl, -⟩
  exact more octets

end Ensures

end Input

open Input (Ensures)

theorem Indicator.ensures_read : Ensures read fun taken _ => taken = size := by
  refine .octets_bind fun _ => .unless_throw fun _ => ?_
  exact .length_bind fun _ => .octet_bind fun _ => .of_pure rfl

namespace Identification

theorem ensures_read4 :
    Ensures read4 fun taken identification => taken = identification.sectionLength := by
  refine .length_bind fun sectionLength => .unless_throw fun long => ?_
  refine .octet_bind fun _ => .word_bind fun _ => .word_bind fun _ => .octet_bind fun _ =>
    .octet_bind fun _ => .octet_bind fun _ => .octet_bind fun _ => .octet_bind fun _ =>
    .octet_bind fun _ => .octet_bind fun _ => .word_bind fun _ => .octet_bind fun _ =>
    .octet_bind fun _ => .octet_bind fun _ => .octet_bind fun _ => .octet_bind fun _ =>
    .octets_bind fun _ => .of_pure ?_
  show _ = sectionLength
  omega

theorem ensures_read3 :
    Ensures read3 fun taken identification =>
      taken = identification.sectionLength ∧
      identification.identity.localSubCategory = 0 ∧ identification.identity.second = 0 ∧
      ∃ year, identification.identity.year = fullYear year := by
  refine .length_bind fun sectionLength => .unless_throw fun long => ?_
  refine .octet_bind fun _ => .octet_bind fun _ => .octet_bind fun _ => .octet_bind fun _ =>
    .octet_bind fun _ => .octet_bind fun _ => .octet_bind fun _ => .octet_bind fun _ =>
    .octet_bind fun _ => .octet_bind fun year => .octet_bind fun _ => .octet_bind fun _ =>
    .octet_bind fun _ => .octet_bind fun _ => .octets_bind fun _ => .of_pure ⟨?_, rfl, rfl, year, rfl⟩
  show _ = sectionLength
  omega

theorem ensures_read (edition : UInt8) :
    Ensures (read edition) fun taken identification =>
      taken = identification.sectionLength ∧
      (edition = 3 → identification.identity.localSubCategory = 0 ∧
        identification.identity.second = 0 ∧
        ∃ year, identification.identity.year = fullYear year) := by
  unfold read
  split
  next =>
    refine ensures_read3.mono ?_
    rintro taken identification ⟨long, lost⟩
    exact ⟨long, fun _ => lost⟩
  next notThird =>
    split
    next =>
      exact ensures_read4.mono fun taken identification long => ⟨long, fun third => absurd third notThird⟩
    next => exact .of_throw

end Identification

theorem Section.ensures_readContent {α : Type} (name : Error.ShortSection)
    (make : Nat → Octets → α) :
    Ensures (readContent name make) fun taken a => ∃ content, a = make taken content := by
  refine .length_bind fun sectionLength => .octet_bind fun _ => .unless_throw fun long => ?_
  refine .octets_bind fun content => .of_pure ⟨content, ?_⟩
  rw [show 3 + (1 + (sectionLength - 4 + 0)) = sectionLength by omega]

theorem OptionalSection.ensures_read :
    Ensures read fun taken section2 => taken = section2.sectionLength :=
  (Section.ensures_readContent _ _).mono fun _ _ ⟨_, made⟩ => made ▸ rfl

theorem Description.ensures_read :
    Ensures read fun taken description =>
      taken = description.sectionLength ∧ ∀ d ∈ description.descriptors, d.f ≤ 3 ∧ d.x ≤ 63 := by
  refine .length_bind fun sectionLength => .octet_bind fun _ => .unless_throw fun long => ?_
  refine .word_bind fun _ => .octet_bind fun _ => ?_
  refine (Ensures.descriptors _).bind ?_
  rintro _ ds ⟨rfl, narrow⟩
  refine .octets_bind fun _ => .of_pure ⟨?_, narrow⟩
  show _ = sectionLength
  omega

namespace Header

def optionalLength (optional : Option OptionalSection) : Nat := optional.elim 0 (·.sectionLength)

def extent (header : Header) : Nat :=
  Indicator.size + header.identification.sectionLength + optionalLength header.optional +
    header.description.sectionLength

structure IsLegible (header : Header) : Prop where
  flagged : header.optional.isSome = header.identification.hasOptional
  narrow : ∀ d ∈ header.description.descriptors, d.f ≤ 3 ∧ d.x ≤ 63
  lost : header.indicator.edition = 3 →
    header.identification.identity.localSubCategory = 0 ∧
    header.identification.identity.second = 0 ∧
    ∃ year, header.identification.identity.year = Identification.fullYear year

theorem ensures_readOptional (present : Bool) :
    Ensures (readOptional present) fun taken optional =>
      taken = optionalLength optional ∧ optional.isSome = present := by
  cases present with
  | false => exact .of_pure ⟨rfl, rfl⟩
  | true => exact .map (OptionalSection.ensures_read.mono fun _ _ long => ⟨long, rfl⟩)

theorem ensures_read : Ensures read fun taken header => taken = header.extent ∧ header.IsLegible := by
  refine Indicator.ensures_read.bind ?_
  rintro _ indicator rfl
  refine (Identification.ensures_read indicator.edition).bind ?_
  rintro _ identification ⟨rfl, lost⟩
  refine (ensures_readOptional identification.hasOptional).bind ?_
  rintro _ optional ⟨rfl, flagged⟩
  refine Description.ensures_read.bind ?_
  rintro _ description ⟨rfl, narrow⟩
  refine .of_pure ⟨?_, flagged, narrow, lost⟩
  simp only [extent, Nat.add_zero, Nat.add_assoc]

end Header

end Bufr
