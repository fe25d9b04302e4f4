import Bufr.Section.Framing

namespace Bufr

structure OptionalSection where
  sectionLength : Nat
  content : Octets
deriving DecidableEq

namespace OptionalSection

def read : Input OptionalSection := Section.readContent .optional .mk

def octets (edition : UInt8) (section2 : OptionalSection) : Except Error Octets :=
  Section.ofBody (Section.isEven edition) (0 :: section2.content)

end OptionalSection

end Bufr
