import Bufr.Proofs.Nesting
import Bufr.Proofs.Template.Expands
import Mathlib.Data.Stream.Defs

/-!
What a template says of the order of the data: its chain, read from the front, with every sequence
spelled out and every body as often as its replication says. The walk over the expanded template
returns its steps in just this order.
-/

namespace Bufr

mutual

/-- The steps that a chain stands for, with the counts of delayed replications taken from a supply.
The last argument is the supply that is left. -/
inductive Unrolls (resolver : Resolver) :
    Chain → Stream' UInt64 → List Opcode → Stream' UInt64 → Prop where
  | nil {supply} : Unrolls resolver [] supply [] supply
  | element {d rest supply steps left} (kind : d.kind = .element)
      (more : Unrolls resolver rest supply steps left) :
      Unrolls resolver (d :: rest) supply (.element d :: steps) left
  | operator {d rest supply steps left} (kind : d.kind = .operator)
      (more : Unrolls resolver rest supply steps left) :
      Unrolls resolver (d :: rest) supply (.operator d :: steps) left
  | sequence {d elements rest supply inner middle steps left} (kind : d.kind = .sequence)
      (named : resolver.sequence d = .ok elements)
      (below : Unrolls resolver elements supply inner middle)
      (more : Unrolls resolver rest middle steps left) :
      Unrolls resolver (d :: rest) supply (inner ++ steps) left
  | fixed {d passes rest body supply inner middle steps left} (kind : d.kind = .replication)
      (counted : resolver.repetition d = .ok ⟨passes, false⟩) (long : d.x.toNat ≤ rest.length)
      (flat : Expands resolver (rest.take d.x.toNat) body)
      (below : Repeats resolver passes.toNat (rest.take d.x.toNat) supply inner middle)
      (more : Unrolls resolver (rest.drop d.x.toNat) middle steps left) :
      Unrolls resolver (d :: rest) supply (.replication d body.length :: (inner ++ steps)) left
  | delayed {d unused count rest body supply inner middle steps left} (kind : d.kind = .replication)
      (counted : resolver.repetition d = .ok ⟨unused, true⟩) (long : d.x.toNat ≤ rest.length)
      (flat : Expands resolver (rest.take d.x.toNat) body)
      (below : Repeats resolver supply.head.toNat (rest.take d.x.toNat) supply.tail inner middle)
      (more : Unrolls resolver (rest.drop d.x.toNat) middle steps left) :
      Unrolls resolver (d :: count :: rest) supply
        (.replication d body.length :: .element count :: (inner ++ steps)) left

inductive Repeats (resolver : Resolver) :
    Nat → Chain → Stream' UInt64 → List Opcode → Stream' UInt64 → Prop where
  | zero {chain supply} : Repeats resolver 0 chain supply [] supply
  | succ {passes chain supply inner middle steps left}
      (first : Unrolls resolver chain supply inner middle)
      (more : Repeats resolver passes chain middle steps left) :
      Repeats resolver (passes + 1) chain supply (inner ++ steps) left

end

namespace Expands

variable {resolver : Resolver} {chain : Chain} {steps : List Opcode}

theorem repeats {chain : Chain}
    (unrolls : ∀ supply, ∃ steps left, Unrolls resolver chain supply steps left) (passes : Nat)
    (supply : Stream' UInt64) : ∃ steps left, Repeats resolver passes chain supply steps left := by
  induction passes generalizing supply with
  | zero => exact ⟨[], supply, .zero⟩
  | succ passes ih =>
      obtain ⟨inner, middle, first⟩ := unrolls supply
      obtain ⟨steps, left, more⟩ := ih middle
      exact ⟨inner ++ steps, left, .succ first more⟩

theorem unrolls (expands : Expands resolver chain steps) (supply : Stream' UInt64) :
    ∃ unrolled left, Unrolls resolver chain supply unrolled left := by
  induction expands generalizing supply with
  | nil => exact ⟨[], supply, .nil⟩
  | element kind _ ih =>
      obtain ⟨unrolled, left, more⟩ := ih supply
      exact ⟨_, left, .element kind more⟩
  | operator kind _ ih =>
      obtain ⟨unrolled, left, more⟩ := ih supply
      exact ⟨_, left, .operator kind more⟩
  | sequence kind named _ _ ihBelow ih =>
      obtain ⟨inner, middle, below⟩ := ihBelow supply
      obtain ⟨unrolled, left, more⟩ := ih middle
      exact ⟨_, left, .sequence kind named below more⟩
  | @fixed d passes rest body steps kind counted long flat _ ihBelow ih =>
      obtain ⟨inner, middle, below⟩ := repeats ihBelow passes.toNat supply
      obtain ⟨unrolled, left, more⟩ := ih middle
      exact ⟨_, left, .fixed kind counted long flat below more⟩
  | delayed kind counted _ long flat _ ihBelow ih =>
      obtain ⟨inner, middle, below⟩ := repeats ihBelow supply.head.toNat supply.tail
      obtain ⟨unrolled, left, more⟩ := ih middle
      exact ⟨_, left, .delayed kind counted long flat below more⟩

/-- Induction on an expansion and what is unrolled by it, which split alike. Only the expansion knows
how many steps each body has. -/
theorem unrolls_induction {motive : List Opcode → Stream' UInt64 → List Opcode → Stream' UInt64 → Prop}
    {unrolled : List Opcode} {supply left : Stream' UInt64} (expands : Expands resolver chain steps)
    (unrolls : Unrolls resolver chain supply unrolled left)
    (nil : ∀ supply, motive [] supply [] supply)
    (append : ∀ {steps steps' inner unrolled supply middle left}, motive steps supply inner middle →
      motive steps' middle unrolled left → motive (steps ++ steps') supply (inner ++ unrolled) left)
    (element : ∀ code supply, motive [.element code] supply [.element code] supply)
    (operator : ∀ code supply, motive [.operator code] supply [.operator code] supply)
    (fixed : ∀ {code passes chain body supply unrolled left}, Expands resolver chain body →
      resolver.repetition code = .ok ⟨passes, false⟩ →
      (∀ supply unrolled left, Unrolls resolver chain supply unrolled left →
        motive body supply unrolled left) →
      Repeats resolver passes.toNat chain supply unrolled left →
        motive (.replication code body.length :: body) supply
          (.replication code body.length :: unrolled) left)
    (delayed : ∀ {code unused count chain body supply unrolled left}, Expands resolver chain body →
      resolver.repetition code = .ok ⟨unused, true⟩ →
      (∀ supply unrolled left, Unrolls resolver chain supply unrolled left →
        motive body supply unrolled left) →
      Repeats resolver supply.head.toNat chain supply.tail unrolled left →
        motive (.replication code body.length :: .element count :: body) supply
          (.replication code body.length :: .element count :: unrolled) left) :
    motive steps supply unrolled left := by
  induction expands generalizing supply left unrolled with
  | nil =>
      cases unrolls
      exact nil _
  | element kind _ ih =>
      cases unrolls with
      | element _ more => exact append (element _ _) (ih more)
      | operator other | sequence other | fixed other | delayed other => cases kind.symm.trans other
  | operator kind _ ih =>
      cases unrolls with
      | operator _ more => exact append (operator _ _) (ih more)
      | element other | sequence other | fixed other | delayed other => cases kind.symm.trans other
  | sequence kind named _ _ ihBelow ih =>
      cases unrolls with
      | sequence _ named' below more =>
          cases named.symm.trans named'
          exact append (ihBelow below) (ih more)
      | element other | operator other | fixed other | delayed other => cases kind.symm.trans other
  | fixed kind counted _ flat _ ihBelow ih =>
      cases unrolls with
      | fixed _ counted' _ flat' below more =>
          cases counted.symm.trans counted'
          cases flat.unique flat'
          exact append (fixed flat counted (fun _ _ _ => ihBelow) below) (ih more)
      | delayed _ counted' => cases counted.symm.trans counted'
      | element other | operator other | sequence other => cases kind.symm.trans other
  | delayed kind counted _ _ flat _ ihBelow ih =>
      cases unrolls with
      | delayed _ _ _ flat' below more =>
          cases flat.unique flat'
          exact append (delayed flat counted (fun _ _ _ => ihBelow) below) (ih more)
      | fixed _ counted' => cases counted.symm.trans counted'
      | element other | operator other | sequence other => cases kind.symm.trans other

theorem unrolls_nil (expands : Expands resolver chain []) {supply left : Stream' UInt64}
    {unrolled : List Opcode} (unrolls : Unrolls resolver chain supply unrolled left) :
    unrolled = [] ∧ left = supply := by
  refine expands.unrolls_induction unrolls
    (motive := fun steps supply unrolled left => steps = [] → unrolled = [] ∧ left = supply)
    (fun _ _ => ⟨rfl, rfl⟩) ?_ nofun nofun nofun nofun rfl
  intro _ _ _ _ _ _ _ first second none
  obtain ⟨noFirst, noSecond⟩ := List.append_eq_nil_iff.1 none
  obtain ⟨rfl, rfl⟩ := first noFirst
  obtain ⟨rfl, rfl⟩ := second noSecond
  exact ⟨rfl, rfl⟩

theorem repeats_nil (expands : Expands resolver chain []) {passes : Nat}
    {supply left : Stream' UInt64} {unrolled : List Opcode}
    (repeats : Repeats resolver passes chain supply unrolled left) :
    unrolled = [] ∧ left = supply := by
  induction passes generalizing supply unrolled with
  | zero =>
      cases repeats
      exact ⟨rfl, rfl⟩
  | succ passes ih =>
      cases repeats with
      | succ first more =>
          obtain ⟨rfl, rfl⟩ := expands.unrolls_nil first
          exact ih more

end Expands

/-! ## The walk -/

def Opcode.after (steps : List Opcode) :
    List Opcode × Stream' UInt64 → List Opcode × Stream' UInt64 :=
  fun (more, left) => (steps ++ more, left)

open Opcode (after)

namespace Walk

/-- What `next` returns from here to the end of the template. Behind a replication, and behind the
count element of a delayed one, the walk is told to replicate. -/
def trace (resolver : Resolver) (walk : Walk) (supply : Stream' UInt64) :
    Except Error (List Opcode × Stream' UInt64) :=
  match _next : walk.next with
  | none => .ok ([], supply)
  | some (.replication code span, rest) =>
    match resolver.repetition code with
    | .error e => .error e
    | .ok ⟨passes, false⟩ =>
      match _replicated : rest.replicate span passes.toUInt64 with
      | .error e => .error e
      | .ok again => (trace resolver again supply).map (after [.replication code span])
    | .ok ⟨_, true⟩ =>
      match _counted : rest.next with
      | none => .error (.noCountElement code)
      | some (count, behind) =>
        match _replicated : behind.replicate span supply.head with
        | .error e => .error e
        | .ok again =>
          (trace resolver again supply.tail).map (after [.replication code span, count])
  | some (op, rest) => (trace resolver rest supply).map (after [op])
termination_by walk.potential
decreasing_by
  · exact Nat.lt_of_lt_of_le (potential_replicate _replicated) (weight_next _next)
  · have entered := Nat.lt_of_lt_of_le (potential_replicate _replicated) (weight_next _counted)
    exact Nat.lt_trans entered (potential_next _next)
  · exact potential_next _next

variable {resolver : Resolver} {walk rest again : Walk} {supply left : Stream' UInt64}
  {code : Descriptor} {span : Nat}

theorem map_after_nil (traced : Except Error (List Opcode × Stream' UInt64)) :
    traced.map (after []) = traced := by
  cases traced <;> rfl

theorem map_after_map_after (first second : List Opcode)
    (traced : Except Error (List Opcode × Stream' UInt64)) :
    (traced.map (after second)).map (after first) = traced.map (after (first ++ second)) := by
  cases traced with
  | error e => rfl
  | ok traced => simp [Except.map, after]

theorem trace_done (ended : walk.next = none) : trace resolver walk supply = .ok ([], supply) := by
  rw [trace]
  split <;> simp_all

theorem trace_element (next : walk.next = some (.element code, rest)) :
    trace resolver walk supply = (trace resolver rest supply).map (after [.element code]) := by
  rw [trace]
  split <;> simp_all

theorem trace_operator (next : walk.next = some (.operator code, rest)) :
    trace resolver walk supply = (trace resolver rest supply).map (after [.operator code]) := by
  rw [trace]
  split <;> simp_all

theorem trace_fixed {passes : UInt8} (next : walk.next = some (.replication code span, rest))
    (counted : resolver.repetition code = .ok ⟨passes, false⟩)
    (replicated : rest.replicate span passes.toUInt64 = .ok again) :
    trace resolver walk supply =
      (trace resolver again supply).map (after [.replication code span]) := by
  rw [trace]
  split <;> simp_all
  split <;> simp_all

theorem trace_delayed {unused : UInt8} {count : Opcode} {behind : Walk}
    (next : walk.next = some (.replication code span, rest))
    (counted : resolver.repetition code = .ok ⟨unused, true⟩)
    (nextCount : rest.next = some (count, behind))
    (replicated : behind.replicate span supply.head = .ok again) :
    trace resolver walk supply =
      (trace resolver again supply.tail).map (after [.replication code span, count]) := by
  rw [trace]
  split <;> simp_all
  split <;> simp_all
  split <;> simp_all

theorem trace_congr {walk' : Walk} (same : walk.next = walk'.next) :
    trace resolver walk supply = trace resolver walk' supply := by
  rw [trace, same]
  exact (trace.eq_def ..).symm

/-! ## Bodies and their passes -/

variable {template : Template} {position : Nat} {frames : List Frame} {chain : Chain}
  {body steps steps' others unrolled inner : List Opcode} {middle : Stream' UInt64}

def Traces (resolver : Resolver) (template : Template) (steps : List Opcode)
    (supply : Stream' UInt64) (unrolled : List Opcode) (left : Stream' UInt64) : Prop :=
  ∀ position frames others, template.ops.toList.drop position = steps ++ others →
    HasRoom position steps.length frames →
    trace resolver ⟨template, position, frames⟩ supply =
      (trace resolver ⟨template, position + steps.length, frames⟩ left).map (after unrolled)

theorem Traces.append (first : Traces resolver template steps supply inner middle)
    (second : Traces resolver template steps' middle unrolled left) :
    Traces resolver template (steps ++ steps') supply (inner ++ unrolled) left := by
  intro position frames others here room
  rw [List.append_assoc] at here
  rw [List.length_append] at room
  rw [first _ _ _ here (room.within (by omega)),
    second _ _ _ (drop_append here) (room.within (by omega)), map_after_map_after,
    List.length_append, Nat.add_assoc]

theorem Traces.element : Traces resolver template [.element code] supply [.element code] supply :=
  fun _ _ _ here room => trace_element (next_of_drop here room)

theorem Traces.operator :
    Traces resolver template [.operator code] supply [.operator code] supply :=
  fun _ _ _ here room => trace_operator (next_of_drop here room)

theorem trace_passes (frame : Frame)
    (pass : ∀ supply unrolled left, Unrolls resolver chain supply unrolled left →
      Traces resolver template body supply unrolled left)
    (here : template.ops.toList.drop frame.start = body ++ others)
    (stop : frame.stop = frame.start + body.length)
    (passes : Nat) (remaining : frame.remaining = passes + 1)
    (repeats : Repeats resolver (passes + 1) chain supply unrolled left) :
    trace resolver ⟨template, frame.start, frame :: frames⟩ supply =
      (trace resolver ⟨template, frame.stop, frames⟩ left).map (after unrolled) := by
  have room (frame' : Frame) (same : frame'.stop = frame.stop) :
      HasRoom frame.start body.length (frame' :: frames) := by
    intro _ first
    cases first
    exact Nat.le_of_eq (same.trans stop).symm
  -- The pass under way counts as remaining: behind it `next` starts the one after it or leaves.
  induction passes generalizing frame supply unrolled with
  | zero =>
      cases repeats with
      | succ first more =>
          cases more
          have ended : next ⟨template, frame.stop, frame :: frames⟩ =
              next ⟨template, frame.stop, frames⟩ := by
            rw [next_at_stop, if_neg (by omega)]
          rw [pass _ _ _ first _ _ _ here (room frame rfl), ← stop, List.append_nil, trace_congr ended]
  | succ passes ih =>
      cases repeats with
      | succ first more =>
          have again : next ⟨template, frame.stop, frame :: frames⟩ =
              next ⟨template, frame.start, frame.again :: frames⟩ := by
            rw [next_at_stop, if_pos (by omega)]
          have left_again : frame.again.remaining = passes + 1 := by simp [Frame.again, remaining]
          have further := ih frame.again here stop left_again more room
          rw [pass _ _ _ first _ _ _ here (room frame rfl), ← stop, trace_congr again,
            ← map_after_map_after]
          exact congrArg _ further

theorem trace_replicate (frames : List Frame) (flat : Expands resolver chain body)
    (pass : ∀ supply unrolled left, Unrolls resolver chain supply unrolled left →
      Traces resolver template body supply unrolled left)
    (here : template.ops.toList.drop position = body ++ others)
    (inside : position ≤ template.size) (passes : UInt64)
    (repeats : Repeats resolver passes.toNat chain supply unrolled left) :
    ∃ again, replicate ⟨template, position, frames⟩ body.length passes = .ok again ∧
      trace resolver again supply =
        (trace resolver ⟨template, position + body.length, frames⟩ left).map (after unrolled) := by
  have fits : position + body.length ≤ template.size := by
    have long := congrArg List.length here
    rw [List.length_drop, List.length_append, Array.length_toList] at long
    rw [Template.size] at *
    omega
  obtain ⟨again, replicated, way⟩ :=
    @exists_replicates ⟨template, position, frames⟩ _ fits passes
  refine ⟨again, replicated, ?_⟩
  cases way with
  | skipped nothing =>
      -- Without a pass or without steps the walk is behind the body at once, with no frame to leave.
      have none : unrolled = [] ∧ left = supply := by
        rcases nothing with rfl | empty
        · cases repeats
          exact ⟨rfl, rfl⟩
        · rw [List.length_eq_zero_iff] at empty
          subst empty
          exact flat.repeats_nil repeats
      rw [none.1, none.2, map_after_nil]
  | entered frame start stop remaining positive =>
      cases start
      obtain ⟨fewer, passesLeft⟩ := Nat.exists_eq_succ_of_ne_zero positive
      rw [passesLeft] at repeats remaining
      exact stop ▸ trace_passes frame pass here stop fewer remaining repeats

theorem Traces.fixed {passes : UInt8} (flat : Expands resolver chain body)
    (counted : resolver.repetition code = .ok ⟨passes, false⟩)
    (pass : ∀ supply unrolled left, Unrolls resolver chain supply unrolled left →
      Traces resolver template body supply unrolled left)
    (repeats : Repeats resolver passes.toNat chain supply unrolled left) :
    Traces resolver template (.replication code body.length :: body) supply
      (.replication code body.length :: unrolled) left := by
  intro position frames others here room
  have next := next_of_drop here (hasRoom_one room)
  rw [← UInt8.toNat_toUInt64] at repeats
  obtain ⟨again, replicated, entered⟩ :=
    trace_replicate frames flat pass (drop_succ here) (lt_of_drop here) _ repeats
  rw [trace_fixed next counted replicated, entered, map_after_map_after, add_length_cons]
  rfl

theorem Traces.delayed {unused : UInt8} {count : Descriptor} (flat : Expands resolver chain body)
    (counted : resolver.repetition code = .ok ⟨unused, true⟩)
    (pass : ∀ supply unrolled left, Unrolls resolver chain supply unrolled left →
      Traces resolver template body supply unrolled left)
    (repeats : Repeats resolver supply.head.toNat chain supply.tail unrolled left) :
    Traces resolver template (.replication code body.length :: .element count :: body) supply
      (.replication code body.length :: .element count :: unrolled) left := by
  intro position frames others here room
  have next := next_of_drop here (hasRoom_one room)
  have afterCount := drop_succ here
  have nextCount := next_of_drop afterCount (hasRoom_one (hasRoom_succ room))
  obtain ⟨again, replicated, entered⟩ :=
    trace_replicate frames flat pass (drop_succ afterCount) (lt_of_drop afterCount) _ repeats
  rw [trace_delayed next counted nextCount replicated, entered, map_after_map_after, add_length_cons,
    add_length_cons]
  rfl

theorem trace_unrolls (flat : Expands resolver chain steps)
    (unrolls : Unrolls resolver chain supply unrolled left) :
    Traces resolver template steps supply unrolled left :=
  flat.unrolls_induction unrolls (fun _ _ _ _ _ _ => (map_after_nil _).symm) Traces.append
    (fun _ _ => Traces.element) (fun _ _ => Traces.operator) Traces.fixed Traces.delayed

theorem trace_start (flat : Expands resolver chain template.ops.toList)
    (unrolls : Unrolls resolver chain supply unrolled left) :
    trace resolver (start template) supply = .ok (unrolled, left) := by
  have here : template.ops.toList.drop 0 = template.ops.toList ++ [] := (List.append_nil _).symm
  have room : HasRoom 0 template.ops.toList.length [] := nofun
  rw [start, trace_unrolls flat unrolls _ _ _ here room, trace_done (next_at_end (drop_append here))]
  simp [Except.map, after]

/-- Whatever the counts, the walk ends, and what it returned is what the chain stands for. -/
theorem trace_of_expand (expanded : Template.expand resolver chain = .ok template)
    (supply : Stream' UInt64) :
    ∃ unrolled left, trace resolver (start template) supply = .ok (unrolled, left) ∧
      ∀ unrolled' left', Unrolls resolver chain supply unrolled' left' ↔
        unrolled' = unrolled ∧ left' = left := by
  have flat := Expands.of_expand expanded
  obtain ⟨unrolled, left, unrolls⟩ := flat.unrolls supply
  refine ⟨unrolled, left, trace_start flat unrolls, fun unrolled' left' => ⟨?_, ?_⟩⟩
  · intro unrolls'
    have same := (trace_start flat unrolls').symm.trans (trace_start flat unrolls)
    cases same
    exact ⟨rfl, rfl⟩
  · rintro ⟨rfl, rfl⟩
    exact unrolls

end Walk

def Resolver.winds : Resolver where
  element d := .error (.unknownElement d)
  sequence d :=
    if d = .sequence 9 1 then .ok [.replication 2 0, .element 31 1, .element 11 1, .element 11 2]
    else .error (.unknownSequence d)
  repetition := repetitionOf

def levels : Chain :=
  [.replication 2 0, .element 31 1, .element 12 101, .sequence 9 1, .replication 1 2, .element 1 15]

def windless : Stream' UInt64 :=
  [2, 0, 1] ++ₛ Stream'.const 0

theorem Walk.trace_levels :
    ∃ template, Template.expand Resolver.winds levels = .ok template ∧
      ∃ unrolled left, trace Resolver.winds (start template) windless = .ok (unrolled, left) ∧
        ∀ unrolled' left', Unrolls Resolver.winds levels windless unrolled' left' ↔
          unrolled' = unrolled ∧ left' = left :=
  have expanded : Template.expand Resolver.winds levels = .ok ⟨#[.replication (.replication 2 0) 5,
      .element (.element 31 1), .element (.element 12 101), .replication (.replication 2 0) 2,
      .element (.element 31 1), .element (.element 11 1), .element (.element 11 2),
      .replication (.replication 1 2) 1, .element (.element 1 15)]⟩ := by decide +kernel
  ⟨_, expanded, trace_of_expand expanded windless⟩

example : (Template.expand Resolver.winds levels).bind (fun template =>
      (Walk.trace Resolver.winds (Walk.start template) windless).map (·.1.map Opcode.code)) =
    .ok [.replication 2 0, .element 31 1, .element 12 101, .replication 2 0, .element 31 1,
      .element 12 101, .replication 2 0, .element 31 1, .element 11 1, .element 11 2,
      .replication 1 2, .element 1 15, .element 1 15] := by
  decide +kernel

end Bufr
