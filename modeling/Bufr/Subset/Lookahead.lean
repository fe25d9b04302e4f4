import Bufr.Subset
import Bufr.Table.Resolver
import Bufr.Template.Walk

/-!
What an encoder has to know of a bitmap before it writes the first entry: how many entries the
template and the counts in the subset ask for, and which quality values follow.
-/

namespace Bufr

def Variable.count (v : Variable) : Except Error UInt64 :=
  match v.value with
  | .integer number =>
    if 0 ≤ number.toInt then .ok (.ofNat number.toInt.toNat) else .error (.badCount v.code v.value)
  | value => .error (.badCount v.code value)

namespace Lookahead

def count (resolver : Resolver) (subset : Subset) (code : Descriptor) (nextVariable : Nat) :
    Except Error (Nat × Nat) :=
  match resolver.repetition code with
  | .error e => .error e
  | .ok repetition =>
    if repetition.delayed then
      match subset.vars[nextVariable]? with
      | none => .error (.noCountVariable code)
      | some v =>
        match v.count with
        | .error e => .error e
        | .ok count => .ok (count.toNat, 1)
    else .ok (repetition.count.toNat, 0)

def isEntry (op : Opcode) : Bool := op == .element .dataPresent

/-- Where the number of entries wraps around. It is a word of 64 bits, and of more only for a subset
with more variables than 64 bits can count, which no memory holds. -/
def wrapsAt (subset : Subset) : Nat := max (2 ^ 64) (subset.size + 1)

/-- Entries from a position of the template on, as a word, and the position behind them. Replications
count if their bodies are entries only. -/
def entries (resolver : Resolver) (template : Template) (subset : Subset)
    (position nextVariable counted : Nat) : Except Error (Nat × Nat) :=
  if inside : position < template.ops.size then
    match template.ops[position] with
    | .element code =>
      if code = .dataPresent then
        entries resolver template subset (position + 1) nextVariable
          ((counted + 1) % wrapsAt subset)
      else .ok (counted, position)
    | .operator code =>
      if code = .operator 36 0 then
        entries resolver template subset (position + 1) nextVariable counted
      else .ok (counted, position)
    | .replication code span =>
      match count resolver subset code nextVariable with
      | .error e => .error e
      | .ok (passes, taken) =>
        if template.ops.size < position + 1 + taken + span then .error (.bodyPastEnd code)
        else
          let body := template.ops.extract (position + 1 + taken) (position + 1 + taken + span)
          if body.all isEntry then
            entries resolver template subset (position + 1 + taken + span) (nextVariable + taken)
              ((counted + passes * span) % wrapsAt subset)
          else .ok (counted, position)
  else .ok (counted, position)
termination_by template.ops.size - position

def endsQuality (code : Descriptor) : Bool :=
  code.y == 0 && (22 ≤ code.x && code.x ≤ 25 || code.x == 32 || code.x == 35 || code.x == 37)

def qualityCodes (found : List Descriptor) : List Opcode → List Descriptor
  | [] => found
  | .element code :: rest =>
    if code.x = 33 ∧ code ∉ found then qualityCodes (found ++ [code]) rest
    else qualityCodes found rest
  | .operator code :: rest => if endsQuality code then found else qualityCodes found rest
  | .replication .. :: rest => qualityCodes found rest

end Lookahead

end Bufr
