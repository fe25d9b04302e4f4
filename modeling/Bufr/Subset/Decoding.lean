import Bufr.Modifiers
import Bufr.Subset
import Bufr.Template.Traversal

/-!
Subsets out of their bits.
-/

namespace Bufr

structure Decoder where
  reader : Bits.Reader
  modifiers : Modifiers
  bitmap : Bitmap
  subset : Subset
  referable : Array Nat

namespace Decoder

def start (reader : Bits.Reader) : Decoder := ⟨reader, .none, .none, .empty, #[]⟩

def refer (s : Decoder) (code : Descriptor) : Decoder :=
  if code.isReferable then { s with referable := s.referable.push s.subset.size } else s

def emit (s : Decoder) (v : Variable) : Decoder :=
  let s := s.refer v.code
  { s with subset := s.subset.push v }

def settle (s : Decoder) : Except Error Decoder := do
  return { s with bitmap := ← s.bitmap.settle s.referable }

def targetCode (s : Decoder) (target : Nat) : Except Error Descriptor :=
  match s.subset.vars[target]? with
  | some v => .ok v.code
  | none => .error (.danglingReference target)

def attachTo (s : Decoder) (target : Nat) (attached : Variable) : Except Error Decoder :=
  if target < s.subset.size then
    .ok { s with
      subset.vars := s.subset.vars.modify target (·.setAttribute attached) }
  else .error (.danglingReference target)

/-! ## Elements -/

def defineReference (code : Descriptor) (bits : Nat) (s : Decoder) : Except Error Decoder := do
  let (reference, reader) ← s.reader.signed bits
  return { s with
    reader
    modifiers := s.modifiers.defineReference code reference
    subset.references := s.subset.references.push (code, reference) }

def bitmapEntry (s : Decoder) : Except Error Decoder := do
  let (bit, reader) ← s.reader.bits 1
  return { s with reader, bitmap := s.bitmap.pushEntry (bit = 0) }

def localElement (code : Descriptor) (width : Nat) (s : Decoder) : Except Error Decoder := do
  let (raw?, reader) ← s.reader.number width
  let value := match raw? with
    | none => .missing
    | some raw => .integer (Int64.ofNat raw)
  return { s with reader }.emit (.ofValue code value)

def associatedField (code : Descriptor) (s : Decoder) : Except Error (Option Nat × Decoder) :=
  match s.modifiers.associatedWidthOf code with
  | 0 => .ok (none, s)
  | width => do
    let (associated, reader) ← s.reader.number width
    return (associated, { s with reader })

def place (v : Variable) (s : Decoder) : Except Error Decoder :=
  if s.bitmap.takesElement v.code then do
    let (target, bitmap) ← s.bitmap.nextTarget
    { s with bitmap }.attachTo target v
  else .ok (s.emit v)

def knownElement (code : Descriptor) (info : ElementInfo) (localWidth? : Option Nat) (s : Decoder) :
    Except Error Decoder := do
  let (empty, modifiers) := s.modifiers.pass code
  let s := { s with modifiers }
  if empty then return s.emit (.missing code)
  else
    let (field, modifiers) ← s.modifiers.field info localWidth?
    let (associated, s) ← associatedField code { s with modifiers }
    let (value, reader) ← field.read s.reader
    place { Variable.ofValue code value with associated } { s with reader }

def element (resolver : Resolver) (code : Descriptor) (s : Decoder) : Except Error Decoder :=
  match s.modifiers.referenceWidth? with
  | some bits => s.defineReference code bits
  | none =>
    if code = .dataPresent ∧ s.bitmap.isCollecting then s.bitmapEntry
    else do
      let s ← s.settle
      let localWidth? := s.modifiers.localWidth?
      let s := { s with modifiers.localWidth? := none }
      match resolver.element code, localWidth? with
      | .ok info, _ => s.knownElement code info localWidth?
      | .error e, some width =>
        if e.kind = .notFound then s.localElement code width else .error e
      | .error e, none => .error e

/-! ## Replications and operators -/

/-- The sum wraps like a signed word, and what comes out negative is no count. -/
def count (resolver : Resolver) (replication code : Descriptor) (s : Decoder) :
    Except Error (UInt64 × Decoder) := do
  let info ← resolver.element code
  let (raw, reader) ← s.reader.bits info.width
  let count := Int64.ofInt (raw + info.reference)
  if count.toInt < 0 then .error (.negativeCount count.toInt replication)
  else return (.ofNat count.toInt.toNat, { s with reader }.emit (.ofValue code (.integer count)))

def marker (resolver : Resolver) (code : Descriptor) (kind : BitmapKind) (s : Decoder) :
    Except Error Decoder :=
  if s.bitmap.kind? ≠ some kind then .error (.markerMismatch code)
  else do
    let (target, bitmap) ← s.bitmap.nextTarget
    let targetCode ← s.targetCode target
    let (field, modifiers) ← s.modifiers.markerField resolver kind targetCode
    let (value, reader) ← field.read s.reader
    { s with reader, modifiers, bitmap }.attachTo target (.ofValue code value)

def operator (resolver : Resolver) (code : Descriptor) (s : Decoder) : Except Error Decoder := do
  match ← Operator.ofDescriptor code with
  | .modify modification => return { s with modifiers := s.modifiers.apply modification }
  | .insertText octets =>
    let s ← s.settle
    let (value, reader) ← Field.readText code octets s.reader
    return { s with reader }.emit (.ofValue code value)
  | .bitmap kind =>
    let s ← s.settle
    return { s with bitmap := s.bitmap.start kind s.referable.size }
  | .marker kind => (← s.settle).marker resolver code kind
  | .keepBitmap => return { s with bitmap := s.bitmap.keep }
  | .reuseBitmap => return { s with bitmap := ← s.bitmap.reuse }
  | .forgetBitmap => return { s with bitmap := s.bitmap.forget }
  | .cancelReferrals =>
    let s ← s.settle
    return { s with bitmap := .none }

def coder (resolver : Resolver) : Coder Decoder where
  element := element resolver
  count := count resolver
  operator _ := operator resolver

def readSubset (resolver : Resolver) (template : Template) (reader : Bits.Reader) :
    Except Error (Subset × Bits.Reader) := do
  let s ← (coder resolver).run resolver (.start template) (.start reader)
  let s ← s.settle
  return (s.subset, s.reader)

def readSubsets (resolver : Resolver) (template : Template) (done : List Subset) :
    Nat → Bits.Reader → Except Error (List Subset × Bits.Reader)
  | 0, reader => .ok (done.reverse, reader)
  | count + 1, reader =>
    match readSubset resolver template reader with
    | .error e => .error e
    | .ok (subset, reader) => readSubsets resolver template (subset :: done) count reader

end Decoder

/-- Octets that a collection sets aside for one subset. -/
def Subset.footprint : Nat := 48

def Subset.fit (count : Nat) : Bool := count * footprint ≤ Bits.Writer.maxCapacity

def decodeSubsets (resolver : Resolver) (template : Template) (data : Octets) (count : Nat) :
    Except Error (List Subset) :=
  if Subset.fit count then
    (Decoder.readSubsets resolver template [] count (.ofOctets data)).map (·.1)
  else .error .capacity

end Bufr
