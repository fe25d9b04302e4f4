import Bufr.Descriptor.Chain

/-!
Templates: chains in which every sequence is spelled out and every replication knows how many of the
steps behind it belong to it.
-/

namespace Bufr

inductive Opcode where
  | element (code : Descriptor)
  /-- Repeats the next `span` steps. A delayed count stands in between and is not one of them. -/
  | replication (code : Descriptor) (span : Nat)
  | operator (code : Descriptor)
deriving DecidableEq, Inhabited

namespace Opcode

def code : Opcode → Descriptor
  | element code => code
  | replication code _ => code
  | operator code => code

instance : ToString Opcode where
  toString
    | .replication code span => s!"{code}[{span}]"
    | op => toString op.code

end Opcode

structure Template where
  ops : Array Opcode
deriving DecidableEq, Inhabited

namespace Template

def size (template : Template) : Nat := template.ops.size

def descriptors (template : Template) : Chain := template.ops.toList.map Opcode.code

def text (template : Template) : String := " ".intercalate (template.ops.toList.map toString)

end Template

end Bufr
