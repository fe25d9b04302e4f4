import Bufr.Variable

/-!
Bitmaps say which of the values before them get an attribute. An entry of zero marks its value as
present. The `n` entries of a bitmap stand for the last `n` referable values before its operator, and
the attributes that follow go to the marked ones in turn.
-/

namespace Bufr

inductive BitmapKind where
  | quality
  | substituted
  | firstOrder
  | difference
  | replaced
deriving DecidableEq

namespace BitmapKind

def ofClass? (x : UInt8) : Option BitmapKind :=
  match x.toNat with
  | 22 => some .quality
  | 23 => some .substituted
  | 24 => some .firstOrder
  | 25 => some .difference
  | 32 => some .replaced
  | _ => none

def operatorClass : BitmapKind → UInt8
  | quality => 22
  | substituted => 23
  | firstOrder => 24
  | difference => 25
  | replaced => 32

def marker (kind : BitmapKind) : Descriptor := .operator kind.operatorClass 255

def marks (kind : BitmapKind) (v : Variable) (qualityCodes : List Descriptor) : Bool :=
  match kind with
  | quality => v.attributes.any fun a => qualityCodes.contains a.code
  | _ => (v.attached? kind.marker).isSome

end BitmapKind

namespace Bitmap

inductive Phase where
  | idle
  /-- Entries are coming in, `true` for a present value. -/
  | collecting (available : Nat) (entries : Array Bool)
  | selected (targets : Array Nat) (used : Nat)
deriving DecidableEq

end Bitmap

structure Bitmap where
  kind? : Option BitmapKind
  phase : Bitmap.Phase
  keepNext : Bool
  kept : Option (Array Nat)
deriving DecidableEq

namespace Bitmap

def none : Bitmap := ⟨.none, .idle, false, .none⟩

def isCollecting (bitmap : Bitmap) : Bool :=
  match bitmap.phase with
  | .collecting .. => true
  | _ => false

def isSelected (bitmap : Bitmap) : Bool :=
  match bitmap.phase with
  | .selected .. => true
  | _ => false

/-- Elements of class 33 behind a quality bitmap are attributes of its targets. -/
def takesElement (bitmap : Bitmap) (code : Descriptor) : Bool :=
  code.x == 33 && bitmap.kind? == some .quality && bitmap.isSelected

def start (bitmap : Bitmap) (kind : BitmapKind) (available : Nat) : Bitmap :=
  { bitmap with kind? := some kind, phase := .collecting available #[] }

def entryCount (bitmap : Bitmap) : Nat :=
  match bitmap.phase with
  | .collecting _ entries => entries.size
  | _ => 0

def pushEntry (bitmap : Bitmap) (present : Bool) : Bitmap :=
  match bitmap.phase with
  | .collecting available entries =>
    { bitmap with phase := .collecting available (entries.push present) }
  | _ => bitmap

def firstCandidate (available entries : Nat) : Except Error Nat :=
  if available < entries then .error (.bitmapTooLong entries available)
  else .ok (available - entries)

def pick (candidates : List Nat) (entries : List Bool) : List Nat :=
  ((candidates.zip entries).filter (·.2)).map (·.1)

def settle (bitmap : Bitmap) (referable : Array Nat) : Except Error Bitmap :=
  match bitmap.phase with
  | .collecting available entries =>
    match firstCandidate available entries.size with
    | .error e => .error e
    | .ok first =>
      let candidates := referable.extract first (first + entries.size)
      let targets := (pick candidates.toList entries.toList).toArray
      .ok { bitmap with
        phase := .selected targets 0
        keepNext := false
        kept := if bitmap.keepNext then some targets else bitmap.kept }
  | _ => .ok bitmap

def keep (bitmap : Bitmap) : Bitmap := { bitmap with keepNext := true }

def reuse (bitmap : Bitmap) : Except Error Bitmap :=
  match bitmap.kept with
  | some targets => .ok { bitmap with phase := .selected targets 0 }
  | .none => .error .noKeptBitmap

def forget (bitmap : Bitmap) : Bitmap := { bitmap with keepNext := false, kept := .none }

/-- The variable that gets the next attribute; after the last one the first comes again. -/
def nextTarget (bitmap : Bitmap) : Except Error (Nat × Bitmap) :=
  match bitmap.phase with
  | .selected targets used =>
    match targets[used % targets.size]? with
    | some target => .ok (target, { bitmap with phase := .selected targets (used + 1) })
    | .none => .error .emptyBitmap
  | _ => .error .noBitmap

end Bitmap

end Bufr
