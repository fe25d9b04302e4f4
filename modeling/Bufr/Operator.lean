import Bufr.Bitmap

namespace Bufr

inductive Modification where
  | width (delta : Int)
  | scale (delta : Int)
  | defineReferences (bits : Nat)
  | endReferences
  | cancelReferences
  | associatedField (bits : Nat)
  | localWidth (bits : Nat)
  /-- More decimal places, with reference value and width to match. -/
  | precision (places : Nat)
  | textLength (octets : Nat)
  | gap (elements : Nat)
deriving DecidableEq

inductive Operator where
  | modify (modification : Modification)
  | insertText (octets : Nat)
  | bitmap (kind : BitmapKind)
  | marker (kind : BitmapKind)
  | keepBitmap
  | reuseBitmap
  | forgetBitmap
  | cancelReferrals
deriving DecidableEq

namespace Operator

/-- The operator in class X with operand Y. A change by Y is coded as `128 + change`, none as zero. -/
def ofOperand? (x y : Nat) : Option Operator :=
  match x, y with
  | 1, 0 => some (.modify (.width 0))
  | 1, y => some (.modify (.width (y - 128)))
  | 2, 0 => some (.modify (.scale 0))
  | 2, y => some (.modify (.scale (y - 128)))
  | 3, 0 => some (.modify .cancelReferences)
  | 3, 255 => some (.modify .endReferences)
  | 3, y => some (.modify (.defineReferences y))
  | 4, y => some (.modify (.associatedField y))
  | 5, y => some (.insertText y)
  | 6, y => some (.modify (.localWidth y))
  | 7, y => some (.modify (.precision y))
  | 8, y => some (.modify (.textLength y))
  | 21, y => some (.modify (.gap y))
  | 35, 0 => some .cancelReferrals
  | 36, 0 => some .keepBitmap
  | 37, 0 => some .reuseBitmap
  | 37, 255 => some .forgetBitmap
  | _, _ => none

def ofDescriptor (d : Descriptor) : Except Error Operator :=
  match BitmapKind.ofClass? d.x with
  | some kind =>
    if d.y = 0 then .ok (.bitmap kind)
    else if d.y = 255 ∧ kind ≠ .quality then .ok (.marker kind)
    else .error (.unsupportedOperator d)
  | none =>
    match ofOperand? d.x.toNat d.y.toNat with
    | some op => .ok op
    | none => .error (.unsupportedOperator d)

end Operator

end Bufr
