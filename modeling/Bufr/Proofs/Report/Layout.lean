import Bufr.Proofs.Coding.Arrangement
import Bufr.Proofs.Coding.Blocks

/-!
Reports of observations with blocks of attributes behind them, each block under a bitmap of its own. A
block has its entries right behind its operator, and then a value for each selected variable in turn,
once for each of its codes.
-/

namespace Bufr

/-- How a bitmap of the kind attaches a value under the code to a variable: quality values are elements,
the others have a marker in the template and the field of their target. -/
inductive BitmapKind.FieldFor (resolver : Resolver) :
    BitmapKind → (code target : Descriptor) → Field → Prop where
  | quality {code target info field} (x : code.x = 33) (known : resolver.element code = .ok info)
      (fieldOk : Modifiers.none.field info .none = .ok (field, .none))
      (narrow : field.isText = false → field.width ≤ 63) : FieldFor resolver .quality code target field
  | marker {kind target field} (other : kind ≠ .quality)
      (fieldOk : Modifiers.none.markerField resolver kind target = .ok (field, .none)) :
      FieldFor resolver kind kind.marker target field

def BitmapKind.step (kind : BitmapKind) (code : Descriptor) : Opcode :=
  match kind with
  | quality => .element code
  | _ => .operator code

structure Observation (resolver : Resolver) where
  code : Descriptor
  info : ElementInfo
  field : Field
  value : Value
  referable : code.isReferable
  known : resolver.element code = .ok info
  fieldOk : Modifiers.none.field info .none = .ok (field, .none)
  narrow : field.isText = false → field.width ≤ 62
  read : ∃ x, field.Reads x value

namespace Observation

variable {resolver : Resolver}

def codes (observations : List (Observation resolver)) : List Descriptor := observations.map (·.code)

end Observation

/-- A bitmap with its entries, and the codes under which each selected variable gets a value. -/
structure BitmapBlock where
  kind : BitmapKind
  entries : List Opcode
  present : List Bool
  codes : List Descriptor
  field : Descriptor → Nat → Field
  value : Descriptor → Nat → Value

namespace BitmapBlock

def selected (block : BitmapBlock) (count : Nat) : List Nat :=
  Bitmap.pick (List.range' (count - block.present.length) block.present.length) block.present

def body (block : BitmapBlock) (count : Nat) : List Opcode :=
  block.entries ++
    block.codes.flatMap fun code => List.replicate (block.selected count).length (block.kind.step code)

def steps (block : BitmapBlock) (count : Nat) : List Opcode :=
  .operator (.operator block.kind.operatorClass 0) :: block.body count

def attributes (block : BitmapBlock) (count i : Nat) : List Variable :=
  if i ∈ block.selected count then
    block.codes.map fun code => .ofValue code (block.value code i)
  else []

variable {resolver : Resolver}

structure Follows (observations : List (Observation resolver)) (block : BitmapBlock) : Prop where
  layout : EntrySteps resolver block.entries block.present.length
  enough : block.present.length ≤ observations.length
  distinct : block.codes.Nodup
  single : block.kind ≠ .quality → block.codes = [block.kind.marker]
  fieldFor : ∀ code ∈ block.codes, ∀ i ∈ block.selected observations.length, ∃ observation,
    observations[i]? = some observation ∧
      block.kind.FieldFor resolver code observation.code (block.field code i)
  read : ∀ code ∈ block.codes, ∀ i ∈ block.selected observations.length,
    ∃ x, (block.field code i).Reads x (block.value code i)

end BitmapBlock

section

variable {resolver : Resolver} (observations : List (Observation resolver)) (blocks : List BitmapBlock)

end

variable {resolver : Resolver} {rest : List Opcode}

namespace BitmapKind

variable {kind kind' : BitmapKind} {code target : Descriptor} {field : Field}

theorem ofDescriptor_operator (kind : BitmapKind) :
    Operator.ofDescriptor (.operator kind.operatorClass 0) = .ok (.bitmap kind) := by
  cases kind <;> rfl

theorem FieldFor.step_eq (fieldFor : kind.FieldFor resolver code target field) :
    (kind.step code = .element code ∧ code ≠ .dataPresent) ∨
      (kind.step code = .operator code ∧ Operator.ofDescriptor code = .ok (.marker kind)) := by
  cases fieldFor with
  | quality x =>
      refine Or.inl ⟨rfl, ?_⟩
      rintro rfl
      cases x
  | marker other => cases kind <;> first | exact Or.inr ⟨rfl, rfl⟩ | exact absurd rfl other

theorem FieldFor.narrow {observation : Observation resolver}
    (fieldFor : kind.FieldFor resolver code observation.code field) (isNumber : field.isText = false) :
    field.width ≤ 63 := by
  cases fieldFor with
  | quality _ _ _ narrow => exact narrow isNumber
  | marker _ fieldOk =>
      obtain ⟨info, own, known, ownOk, same⟩ := Modifiers.markerField_ok fieldOk
      cases known.symm.trans observation.known
      cases ownOk.symm.trans observation.fieldOk
      rcases same with rfl | ⟨_, narrow, rfl⟩
      · exact (observation.narrow isNumber).trans (by decide)
      · exact Nat.succ_le_succ narrow

/-! ## The template of a report -/

theorem FieldFor.ends_and_blocks (fieldFor : kind.FieldFor resolver code target field)
    (more : Blocks resolver rest) :
    Ends resolver (kind.step code :: rest) ∧ Blocks resolver (kind.step code :: rest) := by
  rcases fieldFor.step_eq with ⟨step, other⟩ | ⟨step, marker⟩
  · exact step ▸ ⟨.element other, .element more⟩
  · refine step ▸ ⟨.operator marker trivial, .operator (fun kind' bitmap => ?_) more⟩
    cases marker.symm.trans bitmap

theorem ends_and_blocks_values {given : List Descriptor} {count : Nat}
    (steps : ∀ code ∈ given, 0 < count → ∃ target field, kind.FieldFor resolver code target field)
    (behind : Ends resolver rest ∧ Blocks resolver rest) :
    Ends resolver (given.flatMap (fun code => List.replicate count (kind.step code)) ++ rest) ∧
      Blocks resolver (given.flatMap (fun code => List.replicate count (kind.step code)) ++ rest) := by
  have one {code : Descriptor} {rest : List Opcode} (behind : Ends resolver rest ∧ Blocks resolver rest)
      (step : 0 < count → ∃ target field, kind.FieldFor resolver code target field) :
      Ends resolver (List.replicate count (kind.step code) ++ rest) ∧
        Blocks resolver (List.replicate count (kind.step code) ++ rest) := by
    rcases Nat.eq_zero_or_pos count with rfl | some
    · exact behind
    obtain ⟨_, _, fieldFor⟩ := step some
    clear some step steps
    induction count with
    | zero => exact behind
    | succ count ih => exact fieldFor.ends_and_blocks ih.2
  induction given with
  | nil => exact behind
  | cons code given ih =>
      obtain ⟨first, others⟩ := List.forall_mem_cons.1 steps
      rw [List.flatMap_cons, List.append_assoc]
      exact one (ih others) first

end BitmapKind

namespace EntrySteps

variable {steps : List Opcode} {count : Nat}

theorem entryRun (entries : EntrySteps resolver steps count) (ended : Ends resolver rest) :
    EntryRun resolver (steps ++ rest) := by
  cases entries with
  | plain =>
      induction count with
      | zero => exact .ends ended
      | succ count ih => exact .entry ih
  | fixed span counted =>
      have run := @EntryRun.fixed resolver _ _ (List.replicate span (.element .dataPresent)) _ counted
        (fun _ mem => List.eq_of_mem_replicate mem) (.ends ended)
      rwa [List.length_replicate] at run

theorem blocks (entries : EntrySteps resolver steps count) (more : Blocks resolver rest) :
    Blocks resolver (steps ++ rest) := by
  cases entries with
  | plain =>
      induction count with
      | zero => exact more
      | succ count ih => exact .element ih
  | fixed span counted =>
      have nested (span : Nat) : Nested resolver (List.replicate span (.element .dataPresent)) := by
        induction span with
        | zero => exact .nil
        | succ span ih => exact .element ih
      have run := @Blocks.fixed resolver _ _ (List.replicate span (.element .dataPresent)) _ counted
        (nested span) (fun _ _ mem => by cases List.eq_of_mem_replicate mem) more
      rwa [List.length_replicate] at run

end EntrySteps

variable {observations : List (Observation resolver)} {blocks : List BitmapBlock}

theorem BitmapBlock.ends_and_blocks (follows : ∀ block ∈ blocks, block.Follows observations) :
    Ends resolver (blocks.flatMap (·.steps observations.length)) ∧
      Blocks resolver (blocks.flatMap (·.steps observations.length)) := by
  induction blocks with
  | nil => exact ⟨.nil, .nil⟩
  | cons block blocks ih =>
      obtain ⟨first, others⟩ := List.forall_mem_cons.1 follows
      have fieldFor : ∀ code ∈ block.codes, 0 < (block.selected observations.length).length →
          ∃ target field, block.kind.FieldFor resolver code target field := by
        intro code given some
        obtain ⟨i, selected⟩ := List.exists_mem_of_length_pos some
        obtain ⟨_, _, fieldFor⟩ := first.fieldFor code given i selected
        exact ⟨_, _, fieldFor⟩
      obtain ⟨ended, more⟩ := BitmapKind.ends_and_blocks_values fieldFor (ih others)
      rw [List.flatMap_cons, steps, body, List.cons_append, List.append_assoc]
      exact ⟨.operator block.kind.ofDescriptor_operator trivial,
        .operator (fun _ _ => Or.inl (first.layout.entryRun ended)) (first.layout.blocks more)⟩

end Bufr
