import Bufr.Json.Document
import Bufr.Proofs.Coding.WithoutBitmaps
import Bufr.Proofs.Layout.Subsets
import Bufr.Proofs.Report.RoundTrip
import Bufr.Proofs.Stream.Recovery
import Bufr.Proofs.Template.Unrolled
import Bufr.Proofs.Wire.Bulletin
import Bufr.Proofs.Wire.Reread
import Bufr.Stream
import Bufr.Table.Tables
import Bufr.Variable.Text
import Bufr.Proofs.Stream.Accounting
import Bufr.Proofs.Template.Bodies
import Bufr.Proofs.Template.Frames
import Bufr.Proofs.Coding.Referrals
import Bufr.Proofs.Coding.Shape
import Bufr.Proofs.Coding.Truncation
import Bufr.Proofs.Bits.Calls
import Bufr.Proofs.Coding.Exactness
import Bufr.Proofs.Coding.Consumption
import Bufr.Proofs.Template.Concatenation
import Bufr.Proofs.Coding.Isolation
import Bufr.Proofs.Coding.Unlisted
import Bufr.Proofs.Template.Composition
import Bufr.Proofs.Wire.Tiling
import Bufr.Proofs.Coding.Refusals
import Bufr.Proofs.Template.Depth
import Bufr.Proofs.Coding.Nearness
import Bufr.Proofs.Coding.Precision
import Bufr.Proofs.Coding.Histories
import Bufr.Proofs.Bits.Queries
import Bufr.Proofs.Coding.Foresight
import Bufr.Proofs.Layout.Gaps
import Bufr.Proofs.Layout.Overrides
