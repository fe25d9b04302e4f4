import Bufr.Table.Resolver
import Bufr.Template

/-!
Expansion of a chain into a template. Sequences and the bodies of replications are one level deeper
than what names them, and levels are counted, so that tables which lead back to themselves end in an
error.
-/

namespace Bufr.Template

def window? (count : Nat) (chain : Chain) : Option (Chain × Chain) :=
  let (front, rest) := chain.splitAt count
  if front.length < count then none else some (front, rest)

theorem window?_eq_some {count : Nat} {chain front rest : Chain}
    (h : window? count chain = some (front, rest)) :
    front.length = count ∧ front ++ rest = chain := by
  simp only [window?, List.splitAt_eq] at h
  split at h
  · cases h
  · simp only [Option.some.injEq, Prod.mk.injEq] at h
    obtain ⟨rfl, rfl⟩ := h
    have := List.length_take_le count chain
    exact ⟨by omega, List.take_append_drop count chain⟩

def delayedCount (replication : Descriptor) (delayed : Bool) (rest : Chain) :
    Except Error (Array Opcode × Chain) :=
  if delayed then
    match rest with
    | [] => .error (.countAbsent replication)
    | count :: rest =>
      if count.isQualifier then .ok (#[.element count], rest)
      else .error (.countNotQualifier replication count)
  else .ok (#[], rest)

theorem length_le_of_delayedCount {replication : Descriptor} {delayed : Bool} {rest rest' : Chain}
    {count : Array Opcode} (h : delayedCount replication delayed rest = .ok (count, rest')) :
    rest'.length ≤ rest.length := by
  unfold delayedCount at h
  split at h
  · split at h
    · cases h
    · split at h <;> simp_all
  · simp_all

/-- One level of a chain behind the steps in `done`; `deeper` expands the levels below. -/
def expandLevel (resolver : Resolver) (deeper : Chain → Except Error (Array Opcode))
    (done : Array Opcode) (chain : Chain) : Except Error (Array Opcode) :=
  match chain with
  | [] => .ok done
  | d :: rest =>
    match d.kind with
    | .element => expandLevel resolver deeper (done.push (.element d)) rest
    | .operator => expandLevel resolver deeper (done.push (.operator d)) rest
    | .sequence =>
      match resolver.sequence d with
      | .error e => .error e
      | .ok elements =>
        match deeper elements with
        | .error e => .error e
        | .ok steps => expandLevel resolver deeper (done ++ steps) rest
    | .replication =>
      match resolver.repetition d with
      | .error e => .error e
      | .ok repetition =>
        match _counted : delayedCount d repetition.delayed rest with
        | .error e => .error e
        | .ok (count, behind) =>
          match _split : window? d.x.toNat behind with
          | none => .error (.shortBody d behind.length)
          | some (body, others) =>
            match deeper body with
            | .error e => .error e
            | .ok steps =>
              expandLevel resolver deeper
                (done.push (.replication d steps.size) ++ count ++ steps) others
termination_by chain.length
decreasing_by
  all_goals simp only [List.length_cons]
  any_goals omega
  have := length_le_of_delayedCount _counted
  have := congrArg List.length (window?_eq_some _split).2
  simp only [List.length_append] at this
  omega

/-- The deepest level below the chain itself. -/
def maxDepth : Nat := 32

def expandLevels (resolver : Resolver) : Nat → Chain → Except Error (Array Opcode)
  | 0, _ => .error (.tooDeep maxDepth)
  | levels + 1, chain => expandLevel resolver (expandLevels resolver levels) #[] chain

def expand (resolver : Resolver) (chain : Chain) : Except Error Template :=
  (expandLevels resolver (maxDepth + 1) chain).map Template.mk

end Bufr.Template
