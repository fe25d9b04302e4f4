/-!
JSON values and their compact text: no blanks, members in the order given, and only those characters
escaped that have to be.
-/

namespace Bufr

inductive Json where
  | null
  | bool (value : Bool)
  | number (value : Int)
  | string (value : String)
  | array (elements : List Json)
  | object (members : List (String × Json))
deriving Inhabited

namespace Json

def hexDigit (n : Nat) : Char := Nat.digitChar (n % 16)

def escapeChar (c : Char) : List Char :=
  match c with
  | '"' => ['\\', '"']
  | '\\' => ['\\', '\\']
  | '\n' => ['\\', 'n']
  | '\r' => ['\\', 'r']
  | '\t' => ['\\', 't']
  | '\x08' => ['\\', 'b']
  | '\x0c' => ['\\', 'f']
  | c =>
    if c.toNat < 32 then ['\\', 'u', '0', '0', hexDigit (c.toNat / 16), hexDigit c.toNat] else [c]

def quoted (s : String) : String :=
  String.ofList (['"'] ++ s.toList.flatMap escapeChar ++ ['"'])

mutual

def write (out : String) : Json → String
  | null => out ++ "null"
  | bool value => out ++ (if value then "true" else "false")
  | number value => out ++ toString value
  | string value => out ++ quoted value
  | array [] => out ++ "[]"
  | array (first :: rest) => writeElements (write (out ++ "[") first) rest ++ "]"
  | object [] => out ++ "\x7b\x7d"
  | object ((key, value) :: rest) =>
    writeMembers (write (out ++ "\x7b" ++ quoted key ++ ":") value) rest ++ "\x7d"

def writeElements (out : String) : List Json → String
  | [] => out
  | value :: rest => writeElements (write (out ++ ",") value) rest

def writeMembers (out : String) : List (String × Json) → String
  | [] => out
  | (key, value) :: rest => writeMembers (write (out ++ "," ++ quoted key ++ ":") value) rest

end

def text (json : Json) : String := json.write ""

def ofNat (n : Nat) : Json := number n

def ofOctets (octets : List UInt8) : Json := array (octets.map fun octet => ofNat octet.toNat)

def ofOption {α : Type} (toJson : α → Json) : Option α → Json
  | some value => toJson value
  | none => null

end Json

end Bufr
