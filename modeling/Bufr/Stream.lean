import Bufr.Bulletin

/-!
Bulletins one after the other in a buffer, with anything in between. A damaged one is reported and
rejected, and the search goes on behind it; only a failure to allocate ends the stream.
-/

namespace Bufr

structure Stream where
  position : Nat
  rest : Octets
deriving DecidableEq

namespace Stream

structure Item where
  result : Except Error Bulletin
  rejected : Option Octets

def Item.rejections (item : Item) : List (Octets × Error) :=
  match item.result, item.rejected with
  | .error e, some octets => [(octets, e)]
  | _, _ => []

def ofOctets (octets : Octets) : Stream := ⟨0, octets⟩

def findMark (skipped : Nat) : Octets → Option (Nat × Octets)
  | [] => none
  | octet :: rest =>
    if Indicator.mark.isPrefixOf (octet :: rest) then some (skipped, octet :: rest)
    else findMark (skipped + 1) rest

/-- Where to look on after a bulletin that begins here and is damaged. -/
def nextMark (octets : Octets) : Nat :=
  match findMark 0 (octets.drop 4) with
  | some (skipped, _) => 4 + skipped
  | none => octets.length

def declaredLength (octets : Octets) : Nat := Octets.toNat ((octets.drop 4).take 3)

def endsAt (octets : Octets) (length : Nat) : Bool :=
  12 ≤ length && (octets.drop (length - 4)).take 4 == EndSection.mark

/-- The length of the bulletin that begins here, or why it is damaged and where to look on. -/
def extent (offset : Nat) (octets : Octets) : Except (Nat × Error) Nat :=
  let declared := declaredLength octets
  if octets.length < 8 then .error (octets.length, .cutIndicator offset)
  else if octets.length < declared then
    .error (nextMark octets, .cutMessage offset declared octets.length)
  else if !endsAt octets declared then .error (nextMark octets, .badFraming offset declared)
  else .ok declared

def skip (stream : Stream) (count : Nat) : Stream :=
  ⟨stream.position + count, stream.rest.drop count⟩

def exhausted (stream : Stream) : Stream := ⟨stream.position + stream.rest.length, []⟩

def take (resolver : Resolver) (stream : Stream) : Item × Stream :=
  match extent stream.position stream.rest with
  | .error (length, e) => (⟨.error e, some (stream.rest.take length)⟩, stream.skip length)
  | .ok length =>
    let octets := stream.rest.take length
    match Bulletin.decode resolver octets with
    | .ok bulletin => (⟨.ok bulletin, none⟩, stream.skip length)
    | .error e =>
      if e.kind = .allocation then (⟨.error e, none⟩, stream.exhausted)
      else (⟨.error e, some octets⟩, stream.skip length)

def next (resolver : Resolver) (stream : Stream) : Option Item × Stream :=
  match findMark 0 stream.rest with
  | none => (none, stream.exhausted)
  | some (skipped, rest) =>
    let (item, stream) := take resolver ⟨stream.position + skipped, rest⟩
    (some item, stream)

end Stream

end Bufr
