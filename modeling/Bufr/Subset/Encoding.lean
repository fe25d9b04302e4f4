import Bufr.Modifiers
import Bufr.Subset.Lookahead
import Bufr.Template.Traversal

/-!
Bits out of subsets. A subset has to hold the variables that reading the same template gives, counts
of delayed replications among them.
-/

namespace Bufr

structure Encoder where
  writer : Bits.Writer
  modifiers : Modifiers
  bitmap : Bitmap
  taken : Nat
  defined : Nat
  referable : Array Nat
  planned : Array Bool

namespace Encoder

def start (writer : Bits.Writer) : Encoder := ⟨writer, .none, .none, 0, 0, #[], #[]⟩

def take (subset : Subset) (code : Descriptor) (s : Encoder) : Except Error (Variable × Encoder) :=
  match subset.vars[s.taken]? with
  | none => .error (.subsetEnded code subset.size)
  | some v =>
    if v.code ≠ code then .error (.unexpectedVariable s.taken v.code code)
    else
      .ok (v, { s with
        referable := if code.isReferable then s.referable.push s.taken else s.referable
        taken := s.taken + 1 })

def settle (s : Encoder) : Except Error Encoder :=
  if s.bitmap.isCollecting ∧ s.bitmap.entryCount ≠ s.planned.size then
    .error (.bitmapLength s.bitmap.entryCount s.planned.size)
  else do return { s with bitmap := ← s.bitmap.settle s.referable }

def variableAt (subset : Subset) (index : Nat) : Except Error Variable :=
  match subset.vars[index]? with
  | some v => .ok v
  | none => .error (.danglingReference index)

/-! ## Elements -/

def defineReference (subset : Subset) (code : Descriptor) (bits : Nat) (s : Encoder) :
    Except Error Encoder :=
  match subset.references[s.defined]? with
  | none => .error (.noReference code)
  | some (found, reference) =>
    if found ≠ code then .error (.unexpectedReference found code)
    else do
      let writer ← s.writer.signed bits reference
      return { s with
        writer
        modifiers := s.modifiers.defineReference code reference
        defined := s.defined + 1 }

def bitmapEntry (s : Encoder) : Except Error Encoder :=
  match s.planned[s.bitmap.entryCount]? with
  | none => .error .unplannedEntry
  | some present => do
    let writer ← s.writer.number 1 (if present then 0 else 1)
    return { s with writer, bitmap := s.bitmap.pushEntry present }

def localElement (subset : Subset) (code : Descriptor) (width : Nat) (s : Encoder) :
    Except Error Encoder := do
  let (v, s) ← s.take subset code
  match v.value with
  | .missing => return { s with writer := ← s.writer.number? width none }
  | .integer number =>
    if 0 ≤ number.toInt then
      return { s with writer := ← s.writer.number? width (some number.toInt.toNat) }
    else .error (.badLocalValue code v.value)
  | value => .error (.badLocalValue code value)

def source (subset : Subset) (code : Descriptor) (s : Encoder) :
    Except Error (Variable × Encoder) :=
  if s.bitmap.takesElement code then do
    let (target, bitmap) ← s.bitmap.nextTarget
    let target ← variableAt subset target
    match target.attached? code with
    | some attached => return (attached, { s with bitmap })
    | none => .error (.noQualityAttribute target.code code)
  else s.take subset code

def associatedField (code : Descriptor) (associated : Option Nat) (s : Encoder) :
    Except Error Encoder :=
  match s.modifiers.associatedWidthOf code with
  | 0 => .ok s
  | width => do return { s with writer := ← s.writer.number? width associated }

def knownElement (subset : Subset) (code : Descriptor) (info : ElementInfo)
    (localWidth? : Option Nat) (s : Encoder) : Except Error Encoder := do
  let (empty, modifiers) := s.modifiers.pass code
  let s := { s with modifiers }
  if empty then
    let (v, s) ← s.take subset code
    if v.value.isMissing then return s else .error (.dataInGap code v.value)
  else
    let (field, modifiers) ← s.modifiers.field info localWidth?
    let (v, s) ← { s with modifiers }.source subset code
    let s ← associatedField code v.associated s
    return { s with writer := ← field.write v.value s.writer }

def element (resolver : Resolver) (subset : Subset) (code : Descriptor) (s : Encoder) :
    Except Error Encoder :=
  match s.modifiers.referenceWidth? with
  | some bits => s.defineReference subset code bits
  | none =>
    if code = .dataPresent ∧ s.bitmap.isCollecting then s.bitmapEntry
    else do
      let s ← s.settle
      let localWidth? := s.modifiers.localWidth?
      let s := { s with modifiers.localWidth? := none }
      match resolver.element code, localWidth? with
      | .ok info, _ => s.knownElement subset code info localWidth?
      | .error e, some width =>
        if e.kind = .notFound then s.localElement subset code width else .error e
      | .error e, none => .error e

/-! ## Replications and operators -/

/-- The reference value counts as a signed word here. -/
def count (resolver : Resolver) (subset : Subset) (_replication code : Descriptor) (s : Encoder) :
    Except Error (UInt64 × Encoder) := do
  let info ← resolver.element code
  let (v, s) ← s.take subset code
  let count ← v.count
  match Decimal.above? count.toNat (Int64.ofInt info.reference).toInt with
  | none => .error (.countBelowReference count.toNat code)
  | some raw => return (count, { s with writer := ← s.writer.number info.width raw })

def plan (resolver : Resolver) (subset : Subset) (walk : Walk) (kind : BitmapKind)
    (referable : Array Nat) (taken : Nat) : Except Error (Array Bool) := do
  let (entries, behind) ←
    Lookahead.entries resolver walk.template subset walk.position taken 0
  let first ← Bitmap.firstCandidate referable.size entries
  let codes := match kind with
    | .quality => Lookahead.qualityCodes [] (walk.template.ops.toList.drop behind)
    | _ => []
  let candidates ← (referable.extract first referable.size).mapM (variableAt subset)
  return candidates.map fun v => kind.marks v codes

def openBitmap (resolver : Resolver) (subset : Subset) (walk : Walk) (kind : BitmapKind)
    (s : Encoder) : Except Error Encoder := do
  let planned ← plan resolver subset walk kind s.referable s.taken
  return { s with bitmap := s.bitmap.start kind s.referable.size, planned }

def marker (resolver : Resolver) (subset : Subset) (code : Descriptor) (kind : BitmapKind)
    (s : Encoder) : Except Error Encoder :=
  if s.bitmap.kind? ≠ some kind then .error (.markerMismatch code)
  else do
    let (target, bitmap) ← s.bitmap.nextTarget
    let target ← variableAt subset target
    let (field, modifiers) ← s.modifiers.markerField resolver kind target.code
    let value := match target.attached? code with
      | some attached => attached.value
      | none => .missing
    return { s with bitmap, modifiers, writer := ← field.write value s.writer }

def operator (resolver : Resolver) (subset : Subset) (walk : Walk) (code : Descriptor)
    (s : Encoder) : Except Error Encoder := do
  match ← Operator.ofDescriptor code with
  | .modify modification => return { s with modifiers := s.modifiers.apply modification }
  | .insertText octets =>
    let s ← s.settle
    let (v, s) ← s.take subset code
    let refusal := .numberForInsert code v.value
    return { s with writer := ← Field.writeText octets v.value refusal s.writer }
  | .bitmap kind => (← s.settle).openBitmap resolver subset walk kind
  | .marker kind => (← s.settle).marker resolver subset code kind
  | .keepBitmap => return { s with bitmap := s.bitmap.keep }
  | .reuseBitmap => return { s with bitmap := ← s.bitmap.reuse, planned := #[] }
  | .forgetBitmap => return { s with bitmap := s.bitmap.forget }
  | .cancelReferrals =>
    let s ← s.settle
    return { s with bitmap := .none }

def coder (resolver : Resolver) (subset : Subset) : Coder Encoder where
  element := element resolver subset
  count := count resolver subset
  operator := operator resolver subset

def writeSubset (resolver : Resolver) (template : Template) (subset : Subset)
    (writer : Bits.Writer) : Except Error Bits.Writer := do
  let s ← (coder resolver subset).run resolver (.start template) (.start writer)
  let s ← s.settle
  if s.taken < subset.size then .error (.leftOverVariables (subset.size - s.taken))
  else return s.writer

def writeSubsets (resolver : Resolver) (template : Template) :
    List Subset → Bits.Writer → Except Error Bits.Writer
  | [], writer => .ok writer
  | subset :: rest, writer =>
    match writeSubset resolver template subset writer with
    | .error e => .error e
    | .ok writer => writeSubsets resolver template rest writer

end Encoder

def encodeSubsets (resolver : Resolver) (template : Template) (subsets : List Subset) :
    Except Error Octets :=
  (Encoder.writeSubsets resolver template subsets .empty).map Bits.Writer.finish

end Bufr
