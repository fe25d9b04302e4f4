import Bufr.Table.Entry

namespace Bufr

structure Repetition where
  count : UInt8
  delayed : Bool
deriving DecidableEq, Inhabited

structure Resolver where
  element : Descriptor → Except Error ElementInfo
  sequence : Descriptor → Except Error Chain
  repetition : Descriptor → Except Error Repetition

namespace Resolver

/-- YYY is the count, and zero delays it. -/
def repetitionOf (d : Descriptor) : Except Error Repetition :=
  if d.kind = .replication then .ok ⟨d.y, d.y == 0⟩ else .error (.notReplication d)

def withRepetition (resolver : Resolver) (code : Descriptor) (repetition : Repetition) : Resolver :=
  { resolver with
    repetition := fun d => if d = code then .ok repetition else resolver.repetition d }

def failing (resolver : Resolver) (code : Descriptor) (e : Error) : Resolver where
  element d := if d = code then .error e else resolver.element d
  sequence d := if d = code then .error e else resolver.sequence d
  repetition d := if d = code then .error e else resolver.repetition d

end Resolver

end Bufr
