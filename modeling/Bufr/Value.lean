import Bufr.Decimal.Places
import Bufr.Decimal.Rescale

namespace Bufr

inductive Value where
  | missing
  | decimal (mantissa : Int64) (exponent : Int8)
  | integer (number : Int64)
  | text (content : String)
deriving DecidableEq, Inhabited

namespace Value

def isMissing : Value → Bool
  | missing => true
  | _ => false

def text? : Value → Option String
  | text content => some content
  | _ => none

def toFloat? : Value → Option Float
  | decimal mantissa exponent => some (mantissa.toFloat * Decimal.power 10 exponent.toInt)
  | integer number => some number.toFloat
  | _ => none

/-- The number in units of `10 ^ -scale`, rounded to the nearest. -/
def scaled (value : Value) (scale : Int) : Option Int64 :=
  match value with
  | decimal mantissa exponent => Decimal.rescale mantissa (scale + exponent.toInt)
  | integer number => Decimal.rescale number scale
  | _ => none

def describe : Value → String
  | missing => "Missing"
  | decimal mantissa exponent =>
    Decimal.placesText (mantissa.toFloat * Decimal.power 10 exponent.toInt) (-exponent.toInt).toNat
  | integer number => toString number
  | text content => "\"" ++ content ++ "\""

end Value

end Bufr
