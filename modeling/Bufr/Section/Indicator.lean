import Bufr.Octets

namespace Bufr

structure Indicator where
  totalLength : Nat
  edition : UInt8
deriving DecidableEq

namespace Indicator

def size : Nat := 8

def mark : Octets := [0x42, 0x55, 0x46, 0x52]

def read : Input Indicator := do
  if (← Input.octets 4) ≠ mark then throw .notBulletin
  let totalLength ← Input.length
  let edition ← Input.octet
  return { totalLength, edition }

def octets (indicator : Indicator) : Except Error Octets := do
  return mark ++ (← Octets.ofLength indicator.totalLength) ++ [indicator.edition]

end Indicator

end Bufr
