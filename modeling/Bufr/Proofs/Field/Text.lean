import Bufr.Field
import Mathlib.Data.List.DropRight

/-!
Texts as octets. The octets of a text are those of its characters in turn, none of them has all bits
set, and what fills a field goes away with the reading.
-/

namespace Bufr

namespace Octets

theorem ofText_ofList (cs : List Char) :
    ofText (String.ofList cs) = cs.flatMap String.utf8EncodeChar := by
  simp [ofText, List.utf8Encode]

theorem ofText_eq (text : String) : ofText text = text.toList.flatMap String.utf8EncodeChar := by
  rw [← ofText_ofList, String.ofList_toList]

theorem fromUTF8?_eq_some_iff {octets : Octets} {text : String} :
    String.fromUTF8? ⟨octets.toArray⟩ = some text ↔ octets = ofText text := by
  unfold String.fromUTF8?
  constructor
  · intro read
    split at read
    · cases read
      simp [ofText, String.fromUTF8]
    · cases read
  · rintro rfl
    have same : (⟨(ofText text).toArray⟩ : ByteArray) = text.toByteArray := by simp [ofText]
    have valid := text.isValidUTF8
    simp only [same, dif_pos valid, String.fromUTF8]

theorem lt_of_mem_utf8EncodeChar {c : Char} {octet : UInt8}
    (mem : octet ∈ String.utf8EncodeChar c) : ∃ n, n < 255 ∧ octet = UInt8.ofNat n := by
  unfold String.utf8EncodeChar at mem
  simp only at mem
  split at mem
  · exact ⟨_, by omega, List.mem_singleton.1 mem⟩
  split at mem
  · simp only [List.mem_cons, List.not_mem_nil, or_false] at mem
    rcases mem with same | same
    all_goals exact ⟨_, by omega, same⟩
  split at mem
  all_goals simp only [List.mem_cons, List.not_mem_nil, or_false] at mem
  · rcases mem with same | same | same
    all_goals exact ⟨_, by omega, same⟩
  · rcases mem with same | same | same | same
    all_goals exact ⟨_, by omega, same⟩

theorem octet_ne_of_mem_ofText {text : String} {octet : UInt8} (mem : octet ∈ ofText text) :
    octet ≠ 0xff := by
  rw [ofText_eq] at mem
  obtain ⟨c, _, mem⟩ := List.mem_flatMap.1 mem
  obtain ⟨n, small, rfl⟩ := lt_of_mem_utf8EncodeChar mem
  intro all
  have same := congrArg UInt8.toNat all
  rw [UInt8.toNat_ofNat', Nat.mod_eq_of_lt (by omega)] at same
  simp only [UInt8.reduceToNat] at same
  omega

theorem ofText_spaces (count : Nat) :
    ofText (String.ofList (List.replicate count ' ')) = List.replicate count 0x20 := by
  rw [ofText_ofList, List.flatMap_replicate, show String.utf8EncodeChar ' ' = [0x20] from rfl,
    List.flatten_replicate_singleton]

theorem ofText_append (cs cs' : List Char) :
    ofText (String.ofList (cs ++ cs')) = ofText (String.ofList cs) ++ ofText (String.ofList cs') := by
  rw [ofText_ofList, ofText_ofList, ofText_ofList, List.flatMap_append]

theorem ofText_ascii {cs : List Char} (ascii : ∀ c ∈ cs, c.toNat < 128) :
    ofText (String.ofList cs) = cs.map fun c => UInt8.ofNat c.toNat := by
  rw [ofText_ofList]
  induction cs with
  | nil => rfl
  | cons c cs ih =>
      have small : c.val.toNat ≤ 127 := Nat.le_of_lt_succ (ascii c (by simp))
      have one : String.utf8EncodeChar c = [UInt8.ofNat c.toNat] := by
        unfold String.utf8EncodeChar
        simp only [small, ↓reduceIte]
        rfl
      rw [List.flatMap_cons, List.map_cons, one, ih fun c mem => ascii c (by simp [mem])]
      rfl

end Octets

namespace Field

open Octets (ofText)

/-! ## Filling -/

theorem toList_withoutFilling (text : String) :
    (withoutFilling text).toList = text.toList.rdropWhile isFilling :=
  String.toList_ofList

theorem withoutFilling_append (cs : List Char) {filling : List Char}
    (fills : ∀ c ∈ filling, isFilling c) :
    withoutFilling (String.ofList (cs ++ filling)) = withoutFilling (String.ofList cs) := by
  have back : ∀ c ∈ filling.reverse, isFilling c := fun c mem => fills c (List.mem_reverse.1 mem)
  simp only [withoutFilling, String.toList_ofList, List.reverse_append,
    List.dropWhile_append_of_pos back]

theorem withoutFilling_of_fills {text : String} {count : Nat} :
    withoutFilling (String.ofList (text.toList ++ List.replicate count ' ')) =
      withoutFilling text := by
  rw [withoutFilling_append, String.ofList_toList]
  intro c mem
  rw [List.eq_of_mem_replicate mem]
  rfl

theorem exists_filling (text : String) :
    ∃ filling, text.toList = (withoutFilling text).toList ++ filling := by
  refine ⟨(text.toList.reverse.takeWhile isFilling).reverse, ?_⟩
  rw [toList_withoutFilling, List.rdropWhile, ← List.reverse_append,
    List.takeWhile_append_dropWhile, List.reverse_reverse]

theorem withoutFilling_withoutFilling (text : String) :
    withoutFilling (withoutFilling text) = withoutFilling text := by
  apply String.toList_inj.1
  rw [toList_withoutFilling, toList_withoutFilling]
  exact List.rdropWhile_idempotent _ _

/-! ## Reading -/

theorem ofOctets_missing (code : Descriptor) {count : Nat} (positive : 0 < count) :
    ofOctets code (List.replicate count 0xff) = .ok .missing := by
  obtain ⟨count, rfl⟩ : ∃ n, count = n + 1 := ⟨count - 1, by omega⟩
  simp [ofOctets, List.replicate_succ]

theorem ofOctets_ofText (code : Descriptor) (text : String) :
    ofOctets code (ofText text) = .ok (.text (withoutFilling text)) := by
  unfold ofOctets
  split
  case isTrue all =>
    simp only [Bool.and_eq_true, Bool.not_eq_true', List.isEmpty_eq_false_iff, List.all_eq_true,
      beq_iff_eq] at all
    obtain ⟨octet, mem⟩ := List.exists_mem_of_ne_nil _ all.1
    exact absurd (all.2 octet mem) (Octets.octet_ne_of_mem_ofText mem)
  case isFalse => rw [Octets.fromUTF8?_eq_some_iff.2 rfl]

theorem ofOctets_eq_ok {code : Descriptor} {octets : Octets} {value : Value}
    (h : ofOctets code octets = .ok value) :
    (octets = List.replicate octets.length 0xff ∧ 0 < octets.length ∧ value = .missing) ∨
    ∃ text, octets = ofText text ∧ value = .text (withoutFilling text) := by
  unfold ofOctets at h
  split at h
  next all =>
    simp only [Bool.and_eq_true, Bool.not_eq_true', List.isEmpty_eq_false_iff, List.all_eq_true,
      beq_iff_eq] at all
    cases h
    exact Or.inl ⟨List.eq_replicate_of_mem all.2, List.length_pos_iff.2 all.1, rfl⟩
  next =>
    split at h
    next text read =>
      cases h
      exact Or.inr ⟨text, Octets.fromUTF8?_eq_some_iff.1 read, rfl⟩
    · cases h

end Field

end Bufr
