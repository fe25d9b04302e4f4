import Bufr.Section.Framing

namespace Bufr

structure DataSection where
  sectionLength : Nat
  data : Octets
deriving DecidableEq

namespace DataSection

def read : Input DataSection := Section.readContent .data .mk

def octets (data : Octets) : Except Error Octets := Section.ofBody true (0 :: data)

end DataSection

def EndSection.mark : Octets := [0x37, 0x37, 0x37, 0x37]

/-- In edition 3 a stray zero may stand in front of the end section. -/
def EndSection.read (edition : UInt8) : Input Unit := do
  if edition = 3 then
    let first ← Input.octet
    if first = 0x37 then
      if (← Input.octets 3) ≠ mark.drop 1 then throw .invalidEnd
      return
    if first ≠ 0 then throw .invalidEnd
  if (← Input.octets 4) ≠ mark then throw .invalidEnd

end Bufr
