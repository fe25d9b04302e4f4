import Bufr.Error

/-!
Chains of descriptors: the raw form of a template, before expansion.
-/

namespace Bufr

abbrev Chain := List Descriptor

namespace Chain

def append (chain : Chain) (d : Descriptor) : Chain := chain ++ [d]

/-- Puts a copy of `source` in front of the given position; past the end it goes to the tail. -/
def insertCopy (chain : Chain) (position : Nat) (source : Chain) : Chain :=
  chain.take position ++ source ++ chain.drop position

def join (chain other : Chain) : Chain := List.append chain other

def pop : Chain → Option Descriptor × Chain
  | [] => (none, [])
  | d :: rest => (some d, rest)

def popFront (chain : Chain) (n : Nat) : Except Error (Chain × Chain) :=
  if chain.length < n then .error (.popPastEnd n chain.length) else .ok (chain.splitAt n)

def text (chain : Chain) : String := " ".intercalate (chain.map toString)

end Chain

end Bufr
