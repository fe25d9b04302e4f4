import Bufr.Bits.Reader
import Bufr.Bits.Writer

/-!
A field is the place of one value in the data: so many bits, and what the number in them stands for.
-/

namespace Bufr

structure Field where
  code : Descriptor
  /-- Bits, whole octets for text. -/
  width : Nat
  scale : Int
  reference : Int
  isText : Bool
deriving DecidableEq

namespace Field

def ofRaw (field : Field) (raw : Nat) : Except Error Value :=
  match Decimal.word? ((Int64.ofNat raw).toInt + field.reference) with
  | none => .error (.valueOverflow field.code)
  | some number =>
    if field.scale = 0 then .ok (.integer number)
    else if -128 ≤ -field.scale ∧ -field.scale ≤ 127 then
      .ok (.decimal number (Int8.ofInt (-field.scale)))
    else .error (.scaleOutOfRange field.code field.scale)

def ofRaw? (field : Field) : Option Nat → Except Error Value
  | none => .ok .missing
  | some raw => field.ofRaw raw

def toRaw (field : Field) (value : Value) : Except Error (Option Nat) :=
  match value with
  | .missing => .ok none
  | .text content => .error (.textForNumber field.code content)
  | number =>
    match number.scaled field.scale with
    | none => .error (.scaleOverflow field.code field.scale)
    | some scaled =>
      match Decimal.above? scaled.toInt field.reference with
      | none => .error (.belowReference value field.code)
      | some raw => .ok (some raw)

def isFilling (c : Char) : Bool := c == ' ' || c == '\x00'

def withoutFilling (text : String) : String :=
  String.ofList (text.toList.reverse.dropWhile isFilling).reverse

def ofOctets (code : Descriptor) (octets : Octets) : Except Error Value :=
  if !octets.isEmpty && octets.all (· == 0xff) then .ok .missing
  else
    match String.fromUTF8? ⟨octets.toArray⟩ with
    | some text => .ok (.text (withoutFilling text))
    | none => .error (.invalidText code)

def octetCount (field : Field) : Nat := field.width / 8

def readText (code : Descriptor) (octets : Nat) (reader : Bits.Reader) :
    Except Error (Value × Bits.Reader) := do
  let (octets, reader) ← reader.text octets
  return (← ofOctets code octets, reader)

def read (field : Field) (reader : Bits.Reader) : Except Error (Value × Bits.Reader) :=
  if field.isText then readText field.code field.octetCount reader
  else do
    let (raw?, reader) ← reader.number field.width
    return (← field.ofRaw? raw?, reader)

def writeText (octets : Nat) (value : Value) (refusal : Error) (writer : Bits.Writer) :
    Except Error Bits.Writer :=
  match value with
  | .text content => writer.text octets (Octets.ofText content)
  | .missing => .ok (writer.missingText octets)
  | _ => .error refusal

def write (field : Field) (value : Value) (writer : Bits.Writer) : Except Error Bits.Writer :=
  if field.isText then
    writeText field.octetCount value (.numberForText field.code value) writer
  else do writer.number? field.width (← field.toRaw value)

end Field

end Bufr
