import Bufr.Descriptor
import Bufr.Text.Quoted
import Bufr.Value

/-!
Why something cannot be coded. Each cause belongs to one of four kinds; its wording is given here
and nowhere else.
-/

namespace Bufr

inductive Error.Kind where
  | notFound
  | consistency
  | truncated
  | allocation
deriving DecidableEq, Inhabited

inductive Error.ShortSection where
  | identification3
  | identification4
  | optional
  | description
  | data
deriving DecidableEq

inductive Error where
  /-- Reported from outside: a lookup service or a source of octets. -/
  | reported (kind : Error.Kind) (reason : String)
  -- octets and bits
  | endOfInput
  | capacity
  | truncatedBits (needed offset remaining : Nat)
  | unreadableWidth (width : Nat)
  | unwritableWidth (width : Nat)
  | narrowSigned (width : Nat)
  | overflow (number width : Nat)
  | signedOverflow (number : Int) (width : Nat)
  -- chains, tables and expansion
  | popPastEnd (wanted length : Nat)
  | notElement (code : Descriptor)
  | notReplication (code : Descriptor)
  | notSequence (code : Descriptor)
  | unknownElement (code : Descriptor)
  | unknownSequence (code : Descriptor)
  | tooDeep (limit : Nat)
  | countAbsent (replication : Descriptor)
  | countNotQualifier (replication count : Descriptor)
  | shortBody (replication : Descriptor) (available : Nat)
  -- replications in a subset
  | spanPastEnd (span : Nat)
  | noCountElement (replication : Descriptor)
  | notCount (count replication : Descriptor)
  | negativeCount (count : Int) (replication : Descriptor)
  | badCount (code : Descriptor) (value : Value)
  | countBelowReference (count : Nat) (code : Descriptor)
  | bodyPastEnd (replication : Descriptor)
  | noCountVariable (replication : Descriptor)
  -- fields
  | valueOverflow (code : Descriptor)
  | scaleOutOfRange (code : Descriptor) (scale : Int)
  | scaleOverflow (code : Descriptor) (scale : Int)
  | textForNumber (code : Descriptor) (content : String)
  | numberForText (code : Descriptor) (value : Value)
  | belowReference (value : Value) (code : Descriptor)
  | invalidText (code : Descriptor)
  | referenceOverflow (code : Descriptor) (increase : Nat)
  | widthOutOfRange (code : Descriptor) (width : Int)
  -- operators
  | unsupportedOperator (code : Descriptor)
  | numberForInsert (code : Descriptor) (value : Value)
  | badLocalValue (code : Descriptor) (value : Value)
  | dataInGap (code : Descriptor) (value : Value)
  | noReference (code : Descriptor)
  | unexpectedReference (found expected : Descriptor)
  -- bitmaps
  | bitmapTooLong (entries available : Nat)
  | noKeptBitmap
  | noBitmap
  | emptyBitmap
  | markerMismatch (code : Descriptor)
  | differenceTooWide (code : Descriptor) (width : Nat)
  | unplannedEntry
  | bitmapLength (entries planned : Nat)
  | noQualityAttribute (target code : Descriptor)
  | danglingReference (index : Nat)
  -- variables of a subset
  | subsetEnded (code : Descriptor) (size : Nat)
  | unexpectedVariable (index : Nat) (found expected : Descriptor)
  | leftOverVariables (unused : Nat)
  -- sections, bulletins and streams
  | notBulletin
  | unsupportedEdition (edition : UInt8)
  | shortSection (name : Error.ShortSection)
  | longSection (length : Nat)
  | wideSubCentre (number : UInt16)
  | wideCentre (number : UInt16)
  | invalidEnd
  | cutBulletin (declared available : Nat)
  | compressed
  | tooManySubsets (subsets : Nat)
  | cutIndicator (offset : Nat)
  | cutMessage (offset declared remaining : Nat)
  | badFraming (offset declared : Nat)
deriving DecidableEq, Inhabited

namespace Error

def Kind.label : Kind → String
  | notFound => "Not found"
  | consistency => "Consistency error"
  | truncated => "Truncated data"
  | allocation => "Allocation failed"

def kind : Error → Kind
  | reported kind _ => kind
  | unknownElement _ | unknownSequence _ | unsupportedOperator _ => .notFound
  | endOfInput | truncatedBits .. | cutBulletin .. | cutIndicator _ | cutMessage .. => .truncated
  | capacity => .allocation
  | _ => .consistency

def ShortSection.text : ShortSection → String
  | identification3 => "Identification section (BUFR3) length must be >= 17"
  | identification4 => "Identification section (BUFR4) length must be >= 22"
  | optional => "Optional section length must be >= 4"
  | description => "Data description section length must be >= 7"
  | data => "Data section length must be >= 4"

def reason : Error → String
  | reported _ reason => reason
  | endOfInput => "failed to fill whole buffer"
  | capacity =>
    "memory allocation failed because the computed capacity exceeded the collection's maximum"
  | truncatedBits needed offset remaining =>
    s!"need {needed} bits at bit offset {offset} but only {remaining} remain"
  | unreadableWidth width => s!"cannot read a {width}-bit field"
  | unwritableWidth width => s!"cannot write a {width}-bit field"
  | narrowSigned width => s!"a signed field needs at least 2 bits, got {width}"
  | overflow number width => s!"value {number} does not fit in {width} bits"
  | signedOverflow number width => s!"value {number} does not fit in {width} signed bits"
  | popPastEnd wanted length => s!"cannot pop {wanted} descriptors from a chain of {length}"
  | notElement code => s!"{code} is not an element descriptor"
  | notReplication code => s!"{code} is not a replication descriptor"
  | notSequence code => s!"{code} is not a sequence descriptor"
  | unknownElement code => s!"Table B entry not found for {code}"
  | unknownSequence code => s!"Table D entry not found for {code}"
  | tooDeep limit => s!"descriptor expansion deeper than {limit} levels"
  | countAbsent replication =>
    s!"delayed replication {replication} is not followed by a count descriptor"
  | countNotQualifier replication count =>
    s!"delayed replication {replication} is followed by {count} instead of a class 31 count"
  | shortBody replication available =>
    s!"{replication} replicates {replication.x} descriptors but only {available} follow"
  | spanPastEnd span => s!"replication span of {span} runs past the end of the chain"
  | noCountElement replication => s!"delayed replication {replication} has no count element"
  | notCount count replication => s!"{count} cannot hold the count of {replication}"
  | negativeCount count replication => s!"negative replication count {count} for {replication}"
  | badCount code value =>
    s!"replication count {code} must be a non-negative integer, got {value.describe}"
  | countBelowReference count code => s!"count {count} below the reference of {code}"
  | bodyPastEnd replication => s!"{replication} runs past the end of the chain"
  | noCountVariable replication => s!"subset ended before the count of {replication}"
  | valueOverflow code => s!"{code} overflows"
  | scaleOutOfRange code scale => s!"{code} has scale {scale} out of range"
  | scaleOverflow code scale => s!"{code} overflows at scale {scale}"
  | textForNumber code content =>
    s!"{code} is numeric but the value is the string {Text.quoted content}"
  | numberForText code value =>
    s!"{code} is a character string but the value is {value.describe}"
  | belowReference value code => s!"{value.describe} is below the reference value of {code}"
  | invalidText code => s!"{code} holds a character string that is not valid text"
  | referenceOverflow code increase =>
    s!"reference of {code} overflows after 2 07 {Text.zeroPadded 3 increase}"
  | widthOutOfRange code width => s!"{code} has an effective width of {width} bits"
  | unsupportedOperator code => s!"Operator {code} is not supported"
  | numberForInsert code value => s!"{code} inserts characters but the value is {value.describe}"
  | badLocalValue code value =>
    s!"local element {code} needs a non-negative integer, got {value.describe}"
  | dataInGap code value =>
    s!"{code} carries {value.describe} but falls in a data-not-present run"
  | noReference code => s!"no new reference value for {code}"
  | unexpectedReference found expected =>
    s!"new reference value is for {found} but the chain defines {expected}"
  | bitmapTooLong entries available =>
    s!"bitmap of {entries} entries refers back past the {available} values before it"
  | noKeptBitmap => "2 37 000 without a bitmap defined by 2 36 000"
  | noBitmap => "attribute value without a preceding bitmap"
  | emptyBitmap => "attribute value but the bitmap selects no variables"
  | markerMismatch code => s!"{code} marker does not match the active bitmap"
  | differenceTooWide code width =>
    s!"{code} is {width} bits wide, too wide for a difference statistic"
  | unplannedEntry => "more bitmap entries than planned"
  | bitmapLength entries planned => s!"bitmap has {entries} entries, expected {planned}"
  | noQualityAttribute target code =>
    s!"{target} is marked by the quality bitmap but has no {code} attribute"
  | danglingReference index => s!"variable {index} is not part of the subset"
  | subsetEnded code size => s!"subset ended before {code}: only {size} variables"
  | unexpectedVariable index found expected =>
    s!"variable {index} is {found} but the chain expects {expected}"
  | leftOverVariables unused =>
    s!"{unused} variables left over after the descriptor chain ended"
  | notBulletin => "Invalid magic number"
  | unsupportedEdition edition => s!"Unsupported edition number {edition}"
  | shortSection name => name.text
  | longSection length => s!"section of {length} bytes does not fit a 3-byte length"
  | wideSubCentre number => s!"sub-centre {number} does not fit an edition 3 header"
  | wideCentre number => s!"centre {number} does not fit an edition 3 header"
  | invalidEnd => "Invalid end section"
  | cutBulletin declared available =>
    s!"message declares {declared} bytes but only {available} are available"
  | compressed => "compressed data sections are not supported"
  | tooManySubsets subsets => s!"{subsets} subsets do not fit in one message"
  | cutIndicator offset => s!"message at offset {offset} ends inside section 0"
  | cutMessage offset declared remaining =>
    s!"message at offset {offset} declares {declared} bytes but only {remaining} remain"
  | badFraming offset declared =>
    s!"message at offset {offset} does not end with 7777 at its declared length {declared}"

def message (e : Error) : String := s!"{e.kind.label}: {e.reason}"

inductive SourceFailure where
  | endReached
  | outOfMemory
  | other
deriving DecidableEq

def ofSource (failure : SourceFailure) (text : String) : Error :=
  match failure with
  | .endReached => reported .truncated text
  | .outOfMemory => reported .allocation text
  | .other => reported .consistency text

end Error

end Bufr
