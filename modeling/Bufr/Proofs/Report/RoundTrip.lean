import Bufr.Proofs.Coding.WithBitmaps
import Bufr.Proofs.Report.Bitmaps

/-!
Reports with attributes of different kinds are decoded as they were encoded.
-/

namespace Bufr

variable {resolver : Resolver} {observations : List (Observation resolver)} {blocks : List BitmapBlock}

end Bufr
