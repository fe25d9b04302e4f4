import Bufr.Error

namespace Bufr

structure Variable where
  code : Descriptor
  value : Value
  attributes : List Variable
  associated : Option Nat
deriving Inhabited

namespace Variable

mutual

def decEq : (a b : Variable) → Decidable (a = b)
  | ⟨code, value, attributes, associated⟩, ⟨code', value', attributes', associated'⟩ =>
    match decEqList attributes attributes' with
    | .isTrue attributes_eq =>
      if h : code = code' ∧ value = value' ∧ associated = associated' then
        .isTrue (by rw [h.1, h.2.1, h.2.2, attributes_eq])
      else .isFalse (by
        intro same
        cases same
        exact h ⟨rfl, rfl, rfl⟩)
    | .isFalse attributes_ne => .isFalse (by
        intro same
        cases same
        exact attributes_ne rfl)

def decEqList : (as bs : List Variable) → Decidable (as = bs)
  | [], [] => .isTrue rfl
  | [], _ :: _ => .isFalse (by intro same; cases same)
  | _ :: _, [] => .isFalse (by intro same; cases same)
  | a :: as, b :: bs =>
    match decEq a b with
    | .isTrue head_eq =>
      match decEqList as bs with
      | .isTrue tail_eq => .isTrue (by rw [head_eq, tail_eq])
      | .isFalse tail_ne => .isFalse (by
          intro same
          cases same
          exact tail_ne rfl)
    | .isFalse head_ne => .isFalse (by
        intro same
        cases same
        exact head_ne rfl)

end

instance : DecidableEq Variable := decEq

def ofValue (code : Descriptor) (value : Value) : Variable := ⟨code, value, [], none⟩

def missing (code : Descriptor) : Variable := ofValue code .missing

/-- Puts an attribute in the place of the one with its code, or behind the others. -/
def attach (attached : Variable) : List Variable → List Variable
  | [] => [attached]
  | a :: rest => if a.code = attached.code then attached :: rest else a :: attach attached rest

def setAttribute (v attached : Variable) : Variable :=
  { v with attributes := attach attached v.attributes }

def withAssociated (v : Variable) (associated : Nat) : Variable :=
  { v with associated := some associated }

def attached? (v : Variable) (code : Descriptor) : Option Variable :=
  v.attributes.find? fun a => a.code = code

end Variable

end Bufr
