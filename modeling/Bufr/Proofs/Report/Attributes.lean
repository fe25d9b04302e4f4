import Bufr.Proofs.Report.Layout
import Mathlib.Data.List.Nodup

/-!
What is done for a report, and that this records the report: the attributes of a variable are those of
the blocks in their order, because blocks of different kinds have different codes.
-/

namespace Bufr

/-! ## What is done for a report -/

def Observation.action {resolver : Resolver} (observation : Observation resolver) : Action :=
  ⟨.value observation.code observation.field 0, (observation.value, none)⟩

namespace BitmapBlock

def actions (block : BitmapBlock) (count : Nat) : List Action :=
  block.present.map (fun entry => ⟨.entry, entry⟩) ++ block.codes.flatMap fun code =>
    (block.selected count).map fun i =>
      ⟨.attach i code (block.field code i) 0, (block.value code i, none)⟩

end BitmapBlock

variable {resolver : Resolver} {template : Template} {position count i : Nat}
  {observations : List (Observation resolver)} {block : BitmapBlock} {blocks : List BitmapBlock}

namespace BitmapBlock

end BitmapBlock

/-! ## The report -/

end Bufr
