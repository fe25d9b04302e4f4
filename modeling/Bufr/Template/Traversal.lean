import Bufr.Table.Resolver
import Bufr.Template.Walk

/-!
Running a state along a template. Decoding and encoding are two coders; what happens between their
steps, replications above all, is the same for both and is settled here.
-/

namespace Bufr

structure Coder (State : Type) where
  element : Descriptor → State → Except Error State
  count : (replication element : Descriptor) → State → Except Error (UInt64 × State)
  /-- The walk is the one behind the operator. -/
  operator : Walk → Descriptor → State → Except Error State

namespace Coder

variable {State : Type}

def delayed (coder : Coder State) (code : Descriptor) (span : Nat) (walk : Walk) (state : State) :
    Except Error (Walk × State) :=
  match walk.next with
  | some (.element element, walk) =>
    if element.isCount then
      match coder.count code element state with
      | .error e => .error e
      | .ok (count, state) =>
        match walk.replicate span count with
        | .error e => .error e
        | .ok walk => .ok (walk, state)
    else .error (.notCount element code)
  | _ => .error (.noCountElement code)

def replication (coder : Coder State) (resolver : Resolver) (code : Descriptor) (span : Nat)
    (walk : Walk) (state : State) : Except Error (Walk × State) :=
  match resolver.repetition code with
  | .error e => .error e
  | .ok repetition =>
    if repetition.delayed then coder.delayed code span walk state
    else
      match walk.replicate span repetition.count.toUInt64 with
      | .error e => .error e
      | .ok walk => .ok (walk, state)

def step (coder : Coder State) (resolver : Resolver) (walk : Walk) (state : State) :
    Except Error (Option Walk × State) :=
  match walk.next with
  | none => .ok (none, state)
  | some (.element code, walk) => (coder.element code state).map (some walk, ·)
  | some (.operator code, walk) => (coder.operator walk code state).map (some walk, ·)
  | some (.replication code span, walk) =>
    (coder.replication resolver code span walk state).map fun (walk, state) => (some walk, state)

theorem potential_delayed {coder : Coder State} {code : Descriptor} {span : Nat}
    {walk walk' : Walk} {state state' : State}
    (h : coder.delayed code span walk state = .ok (walk', state')) :
    walk'.potential < walk.potential := by
  unfold delayed at h
  split at h
  next element rest next =>
    split at h
    · split at h
      · cases h
      · split at h
        · cases h
        next replicated =>
          cases h
          exact Nat.lt_of_lt_of_le (Walk.potential_replicate replicated) (Walk.weight_next next)
    · cases h
  · cases h

theorem potential_replication {coder : Coder State} {resolver : Resolver} {code : Descriptor}
    {span : Nat} {walk rest walk' : Walk} {state state' : State}
    (next : walk.next = some (.replication code span, rest))
    (h : coder.replication resolver code span rest state = .ok (walk', state')) :
    walk'.potential < walk.potential := by
  unfold replication at h
  split at h
  · cases h
  split at h
  · exact Nat.lt_trans (potential_delayed h) (Walk.potential_next next)
  split at h
  · cases h
  next replicated =>
    cases h
    exact Nat.lt_of_lt_of_le (Walk.potential_replicate replicated) (Walk.weight_next next)

theorem map_eq_ok {α β : Type} {f : α → β} {result : Except Error α} {b : β}
    (h : result.map f = .ok b) : ∃ a, result = .ok a ∧ f a = b := by
  cases result with
  | error e => cases h
  | ok a => exact ⟨a, rfl, Except.ok.inj h⟩

theorem potential_step {coder : Coder State} {resolver : Resolver} {walk walk' : Walk}
    {state state' : State} (h : coder.step resolver walk state = .ok (some walk', state')) :
    walk'.potential < walk.potential := by
  unfold step at h
  split at h
  · cases h
  next next =>
    obtain ⟨_, _, same⟩ := map_eq_ok h
    cases same
    exact Walk.potential_next next
  next next =>
    obtain ⟨_, _, same⟩ := map_eq_ok h
    cases same
    exact Walk.potential_next next
  next next =>
    obtain ⟨_, replicated, same⟩ := map_eq_ok h
    cases same
    exact potential_replication next replicated

def run (coder : Coder State) (resolver : Resolver) (walk : Walk) (state : State) :
    Except Error State :=
  match _h : coder.step resolver walk state with
  | .error e => .error e
  | .ok (none, state) => .ok state
  | .ok (some walk, state) => run coder resolver walk state
termination_by walk.potential
decreasing_by exact potential_step _h

end Coder

end Bufr
