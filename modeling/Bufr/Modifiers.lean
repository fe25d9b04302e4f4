import Bufr.Field
import Bufr.Operator
import Bufr.Table.Resolver

/-!
What operators leave behind for the fields that follow. Every subset begins without any of it.
-/

namespace Bufr

structure Modifiers where
  widthDelta : Int
  scaleDelta : Int
  /-- Defined reference values; the next field of the element uses its value up. -/
  references : List (Descriptor × Int)
  referenceWidth? : Option Nat
  associatedWidth : Nat
  localWidth? : Option Nat
  precision : Nat
  textLength? : Option Nat
  /-- Elements left in a run without data. -/
  gap : Nat
deriving DecidableEq

namespace Modifiers

def none : Modifiers := ⟨0, 0, [], .none, 0, .none, 0, .none, 0⟩

def apply (m : Modifiers) : Modification → Modifiers
  | .width delta => { m with widthDelta := delta }
  | .scale delta => { m with scaleDelta := delta }
  | .defineReferences bits => { m with referenceWidth? := some bits }
  | .endReferences => { m with referenceWidth? := .none }
  | .cancelReferences => { m with referenceWidth? := .none, references := [] }
  | .associatedField bits => { m with associatedWidth := bits }
  | .localWidth bits => { m with localWidth? := some bits }
  | .precision places => { m with precision := places }
  | .textLength octets => { m with textLength? := if octets = 0 then .none else some octets }
  | .gap elements => { m with gap := elements }

def without (code : Descriptor) (references : List (Descriptor × Int)) : List (Descriptor × Int) :=
  references.filter (·.1 ≠ code)

def defineReference (m : Modifiers) (code : Descriptor) (reference : Int) : Modifiers :=
  { m with references := (code, reference) :: without code m.references }

/-- Counts an element against a run without data; `true` when it has no data. Classes 1 to 9 and 31
keep theirs. -/
def pass (m : Modifiers) (code : Descriptor) : Bool × Modifiers :=
  if m.gap = 0 then (false, m)
  else (!(1 ≤ code.x && code.x ≤ 9 || code.x == 31), { m with gap := m.gap - 1 })

def associatedWidthOf (m : Modifiers) (code : Descriptor) : Nat :=
  if code.isQualifier then 0 else m.associatedWidth

def raisedReference? (reference : Int) (places : Nat) : Option Int := do
  let power ← Decimal.tenTo? places
  return (← Decimal.word? (reference * power)).toInt

def adjusted (m : Modifiers) (info : ElementInfo) : Except Error (Int × Int × Int) :=
  if info.isText then
    match m.textLength? with
    | some octets => .ok (8 * octets, info.scale, info.reference)
    | .none => .ok (info.width, info.scale, info.reference)
  else if info.isCoded || info.code.isQualifier then
    .ok (info.width, info.scale, info.reference)
  else if m.precision = 0 then
    .ok (info.width + m.widthDelta, info.scale + m.scaleDelta, info.reference)
  else
    match raisedReference? info.reference m.precision with
    | some reference =>
      .ok (info.width + m.widthDelta + (10 * m.precision + 2) / 3,
        info.scale + m.scaleDelta + m.precision, reference)
    | .none => .error (.referenceOverflow info.code m.precision)

/-- Text comes in whole octets, numbers have at most 64 bits. A width itself is a word of 32 bits. -/
def isWidth (isText : Bool) (width : Int) : Bool :=
  0 ≤ width && if isText then width % 8 == 0 && width < 2 ^ 32 else width ≤ 64

def field (m : Modifiers) (info : ElementInfo) (localWidth? : Option Nat) :
    Except Error (Field × Modifiers) :=
  match m.adjusted info with
  | .error e => .error e
  | .ok (width, scale, reference) =>
    let width := match localWidth? with
      | some bits => (bits : Int)
      | .none => width
    let reference := (Int64.ofInt ((m.references.lookup info.code).getD reference)).toInt
    if isWidth info.isText width then
      .ok (⟨info.code, width.toNat, scale, reference, info.isText⟩,
        { m with references := without info.code m.references })
    else .error (.widthOutOfRange info.code width)

/-- The field of a value that a marker attaches: that of its target, but differences have one bit
more and are centred on zero. -/
def markerField (m : Modifiers) (resolver : Resolver) (kind : BitmapKind) (target : Descriptor) :
    Except Error (Field × Modifiers) := do
  let (field, m) ← m.field (← resolver.element target) .none
  if kind = .difference ∧ !field.isText then
    if 63 ≤ field.width then .error (.differenceTooWide target field.width)
    else return ({ field with reference := -2 ^ field.width, width := field.width + 1 }, m)
  else return (field, m)

end Modifiers

end Bufr
