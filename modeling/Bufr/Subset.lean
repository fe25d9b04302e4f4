import Bufr.Variable

namespace Bufr

structure Subset where
  vars : Array Variable
  references : Array (Descriptor × Int)
deriving DecidableEq, Inhabited

namespace Subset

def empty : Subset := ⟨#[], #[]⟩

def push (subset : Subset) (v : Variable) : Subset :=
  { subset with vars := subset.vars.push v }

def size (subset : Subset) : Nat := subset.vars.size

def find? (subset : Subset) (code : Descriptor) : Option Variable :=
  subset.vars.find? fun v => v.code = code

end Subset

end Bufr
