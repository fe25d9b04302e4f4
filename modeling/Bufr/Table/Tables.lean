import Std.Data.HashMap
import Bufr.Table.Resolver
import Bufr.Table.Wmo

namespace Bufr

structure Tables where
  elements : Std.HashMap (UInt8 × UInt8) ElementEntry
  sequences : Std.HashMap (UInt8 × UInt8) SequenceEntry

namespace Tables

def empty : Tables := ⟨∅, ∅⟩

/-- Adds an entry or replaces the one it hides, as local tables do. -/
def insertElement (tables : Tables) (entry : ElementEntry) : Tables :=
  { tables with elements := tables.elements.insert (entry.x, entry.y) entry }

def insertSequence (tables : Tables) (entry : SequenceEntry) : Tables :=
  { tables with sequences := tables.sequences.insert (entry.x, entry.y) entry }

def wmo : Tables := Wmo.sequences.foldl insertSequence (Wmo.elements.foldl insertElement empty)

def element (tables : Tables) (d : Descriptor) : Except Error ElementInfo :=
  if d.kind = .element then
    match tables.elements[d.key]? with
    | some entry => .ok entry.info
    | none => .error (.unknownElement d)
  else .error (.notElement d)

def sequence (tables : Tables) (d : Descriptor) : Except Error Chain :=
  if d.kind = .sequence then
    match tables.sequences[d.key]? with
    | some entry => .ok entry.elements
    | none => .error (.unknownSequence d)
  else .error (.notSequence d)

def resolver (tables : Tables) : Resolver where
  element := tables.element
  sequence := tables.sequence
  repetition := Resolver.repetitionOf

end Tables

end Bufr
