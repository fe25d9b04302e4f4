import Bufr.Proofs.Wire.Extents
import Bufr.Proofs.Wire.Reads
import Bufr.Section.Data

/-!
Readers that take a front of the octets, look at nothing behind it and cannot do with less. Every
section has such a reader, so a cut anywhere in front of the end of a section is a lack of octets.
-/

namespace Bufr

namespace Input

variable {α β : Type} {input : Input α} {f : α → Input β} {front back : Octets} {a : α} {b : β}

/-- The reader takes this front, and any part of it is too short. -/
structure Spans (input : Input α) (front : Octets) (a : α) : Prop where
  reads : Reads input front a
  short : ∀ count < front.length, input (front.take count) = .error .endOfInput

namespace Spans

theorem of_pure (a : α) : Spans (pure a) [] a where
  reads := .of_pure a
  short _ less := absurd less (Nat.not_lt_zero _)

theorem bind (first : Spans input front a) (second : Spans (f a) back b) :
    Spans (input >>= f) (front ++ back) b where
  reads := first.reads.bind second.reads
  short count less := by
    show (input ((front ++ back).take count) >>= fun (a, rest) => f a rest) = _
    by_cases inside : count < front.length
    · rw [List.take_append_of_le_length (Nat.le_of_lt inside), first.short count inside]
      rfl
    · rw [List.length_append] at less
      rw [List.take_append, List.take_of_length_le (Nat.not_lt.1 inside), first.reads, ok_bind]
      exact second.short _ (by omega)

theorem octets (taken : Octets) : Spans (Input.octets taken.length) taken taken where
  reads := .octets taken rfl
  short count less := by
    simp only [Input.octets, List.splitAt_eq, List.length_take]
    rw [if_pos (by omega)]

end Spans

def Delimits (input : Input α) : Prop :=
  ∀ octets a rest, input octets = .ok (a, rest) →
    ∃ front, octets = front ++ rest ∧ Spans input front a

namespace Delimits

theorem of_pure (a : α) : Delimits (pure a) := by
  intro octets b rest read
  cases read
  exact ⟨[], rfl, .of_pure a⟩

theorem of_throw (e : Error) : Delimits (throw e : Input α) := by
  intro octets a rest read
  cases read

theorem bind (first : Delimits input) (second : ∀ a, Delimits (f a)) : Delimits (input >>= f) := by
  intro octets b rest read
  obtain ⟨⟨a, between⟩, readFirst, readSecond⟩ := bind_eq_ok.1 read
  obtain ⟨front, rfl, spansFirst⟩ := first _ a _ readFirst
  obtain ⟨back, rfl, spansSecond⟩ := second a _ b _ readSecond
  exact ⟨front ++ back, (List.append_assoc ..).symm, spansFirst.bind spansSecond⟩

theorem map (g : α → β) (delimits : Delimits input) : Delimits (g <$> input) := by
  rw [map_eq_pure_bind]
  exact delimits.bind fun a => of_pure (g a)

theorem ite {c : Prop} [Decidable c] {input' : Input α} (first : Delimits input)
    (second : Delimits input') : Delimits (if c then input else input') := by
  split
  · exact first
  · exact second

theorem unless_throw {c : Prop} [Decidable c] {e : Error} {more : Unit → Input β}
    (otherwise : Delimits (more ())) : Delimits (if c then throw e >>= more else more ()) :=
  .ite ((of_throw e).bind fun _ => otherwise) otherwise

theorem octets (count : Nat) : Delimits (Input.octets count) := by
  intro octets taken rest read
  obtain ⟨rfl, split⟩ := octets_eq_ok_iff.1 read
  exact ⟨taken, split.symm, .octets taken⟩

theorem number (count : Nat) : Delimits (Input.number count) :=
  (octets count).bind fun _ => of_pure _

theorem octet : Delimits Input.octet := (number 1).bind fun _ => of_pure _

theorem word : Delimits Input.word := (number 2).bind fun _ => of_pure _

theorem descriptorsOnto (done : List Descriptor) (count : Nat) :
    Delimits (Input.descriptorsOnto done count) := by
  induction count generalizing done with
  | zero => exact of_pure _
  | succ count ih => exact (word.bind fun _ => of_pure _).bind fun d => ih (d :: done)

end Delimits

end Input

open Input (Delimits)

theorem Indicator.delimits_read : Delimits read :=
  (Delimits.octets 4).bind fun _ => .unless_throw <|
    (Delimits.number 3).bind fun _ => Delimits.octet.bind fun _ => .of_pure _

namespace Identification

theorem delimits_read4 : Delimits read4 := by
  refine (Delimits.number 3).bind fun _ => .unless_throw ?_
  refine Delimits.octet.bind fun _ => Delimits.word.bind fun _ => Delimits.word.bind fun _ =>
    Delimits.octet.bind fun _ => Delimits.octet.bind fun _ => Delimits.octet.bind fun _ =>
    Delimits.octet.bind fun _ => Delimits.octet.bind fun _ => Delimits.octet.bind fun _ =>
    Delimits.octet.bind fun _ => Delimits.word.bind fun _ => Delimits.octet.bind fun _ =>
    Delimits.octet.bind fun _ => Delimits.octet.bind fun _ => Delimits.octet.bind fun _ =>
    Delimits.octet.bind fun _ => ?_
  exact (Delimits.octets _).bind fun _ => .of_pure _

theorem delimits_read3 : Delimits read3 := by
  refine (Delimits.number 3).bind fun _ => .unless_throw ?_
  refine Delimits.octet.bind fun _ => Delimits.octet.bind fun _ => Delimits.octet.bind fun _ =>
    Delimits.octet.bind fun _ => Delimits.octet.bind fun _ => Delimits.octet.bind fun _ =>
    Delimits.octet.bind fun _ => Delimits.octet.bind fun _ => Delimits.octet.bind fun _ =>
    Delimits.octet.bind fun _ => Delimits.octet.bind fun _ => Delimits.octet.bind fun _ =>
    Delimits.octet.bind fun _ => Delimits.octet.bind fun _ => ?_
  exact (Delimits.octets _).bind fun _ => .of_pure _

theorem delimits_read (edition : UInt8) : Delimits (read edition) :=
  .ite delimits_read3 (.ite delimits_read4 (.of_throw _))

end Identification

theorem Section.delimits_readContent {α : Type} (name : Error.ShortSection)
    (make : Nat → Octets → α) : Delimits (readContent name make) :=
  (Delimits.number 3).bind fun _ => Delimits.octet.bind fun _ => .unless_throw <|
    (Delimits.octets _).bind fun _ => .of_pure _

theorem Description.delimits_read : Delimits read := by
  refine (Delimits.number 3).bind fun _ => Delimits.octet.bind fun _ => .unless_throw ?_
  refine Delimits.word.bind fun _ => Delimits.octet.bind fun _ => ?_
  refine (Delimits.descriptorsOnto [] _).bind fun _ => ?_
  exact (Delimits.octets _).bind fun _ => .of_pure _

theorem Header.delimits_read : Delimits read := by
  refine Indicator.delimits_read.bind fun indicator => ?_
  refine (Identification.delimits_read _).bind fun identification => ?_
  refine Delimits.bind (.ite (.map _ (Section.delimits_readContent _ _)) (.of_pure none)) fun _ => ?_
  exact Description.delimits_read.bind fun _ => .of_pure _

theorem EndSection.delimits_read (edition : UInt8) : Delimits (read edition) := by
  have whole : Delimits (do if (← Input.octets 4) ≠ mark then throw .invalidEnd) :=
    (Delimits.octets 4).bind fun _ => .ite (.of_throw _) (.of_pure ())
  refine .ite (Delimits.octet.bind fun first => .ite ?_ (.unless_throw whole)) whole
  exact (Delimits.octets 3).bind fun _ => .unless_throw (.of_pure ())

end Bufr
