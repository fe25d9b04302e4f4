import Bufr.Template

/-!
The walk over a template that plays replicated steps again. A frame is a replication under way; the
cursor goes back to the start of the innermost one until its passes are over.
-/

namespace Bufr

structure Frame where
  start : Nat
  stop : Nat
  /-- Passes left, the current one included. -/
  remaining : Nat
  start_lt : start < stop
  remaining_lt : remaining < 2 ^ 64

def Frame.again (frame : Frame) : Frame :=
  { frame with
    remaining := frame.remaining - 1
    remaining_lt := Nat.lt_of_le_of_lt (Nat.sub_le ..) frame.remaining_lt }

structure Walk where
  template : Template
  position : Nat
  frames : List Frame

namespace Walk

def start (template : Template) : Walk := ⟨template, 0, []⟩

/-- Leaves the frames whose last pass is over and starts the next pass of the first other one. -/
def settle (position : Nat) : List Frame → Nat × List Frame
  | [] => (position, [])
  | frame :: outer =>
    if position < frame.stop then (position, frame :: outer)
    else if 1 < frame.remaining then (frame.start, frame.again :: outer)
    else settle position outer

def next (walk : Walk) : Option (Opcode × Walk) :=
  match settle walk.position walk.frames with
  | (position, frames) =>
    match walk.template.ops[position]? with
    | none => none
    | some op => some (op, { walk with position := position + 1, frames })

def replicate (walk : Walk) (span : Nat) (count : UInt64) : Except Error Walk :=
  if walk.template.size < walk.position + span then .error (.spanPastEnd span)
  else if h : count = 0 ∨ span = 0 then .ok { walk with position := walk.position + span }
  else
    .ok { walk with
      frames := ⟨walk.position, walk.position + span, count.toNat, by omega, count.toNat_lt⟩ ::
        walk.frames }

/-! ## Every step leaves less to do

A start at a position can lead to many visits behind it, but a count is less than `2 ^ 64`. So a visit
weighs as much as `2 ^ 64` visits of the position behind it.
-/

def weight (size position : Nat) : Nat := (2 ^ 64) ^ (size - position)

def pending (size : Nat) : List Frame → Nat
  | [] => 0
  | frame :: outer => (frame.remaining - 1) * weight size frame.start + pending size outer

def potential (walk : Walk) : Nat :=
  weight walk.template.size walk.position + pending walk.template.size walk.frames

theorem weight_anti (size : Nat) {position later : Nat} (h : position ≤ later) :
    weight size later ≤ weight size position :=
  Nat.pow_le_pow_right (by decide) (by omega)

theorem weight_pos (size position : Nat) : 0 < weight size position :=
  Nat.pow_pos (by decide)

theorem weight_succ {position size : Nat} (h : position < size) :
    weight size position = 2 ^ 64 * weight size (position + 1) := by
  rw [weight, weight, ← Nat.pow_succ']
  congr 1
  omega

theorem weight_settle (size : Nat) {position settled : Nat} {frames kept : List Frame}
    (h : settle position frames = (settled, kept)) :
    weight size settled + pending size kept ≤ weight size position + pending size frames := by
  induction frames generalizing kept with
  | nil => cases h; exact Nat.le_refl _
  | cons frame outer ih =>
    simp only [settle] at h
    split at h
    · cases h; exact Nat.le_refl _
    split at h
    · cases h
      have := weight_pos size position
      have again := Nat.succ_mul (frame.remaining - 2) (weight size frame.start)
      simp only [pending, Frame.again, show frame.remaining - 1 - 1 = frame.remaining - 2 by omega]
      rw [show frame.remaining - 1 = (frame.remaining - 2).succ by omega]
      omega
    · have := ih h
      simp only [pending]
      omega

theorem template_of_next {walk rest : Walk} {op : Opcode} (h : walk.next = some (op, rest)) :
    rest.template = walk.template := by
  unfold next at h
  split at h
  split at h
  · cases h
  · cases h; rfl

theorem weight_next {walk rest : Walk} {op : Opcode} (h : walk.next = some (op, rest)) :
    2 ^ 64 * weight rest.template.size rest.position + pending rest.template.size rest.frames ≤
      walk.potential := by
  unfold next at h
  split at h
  next settled =>
    split at h
    · cases h
    next found =>
      cases h
      obtain ⟨inside, _⟩ := Array.getElem?_eq_some_iff.1 found
      have := weight_settle walk.template.size settled
      rwa [weight_succ (show _ < walk.template.size from inside)] at this

theorem potential_next {walk rest : Walk} {op : Opcode} (h : walk.next = some (op, rest)) :
    rest.potential < walk.potential := by
  have := weight_next h
  have := weight_pos rest.template.size rest.position
  unfold potential at *
  omega

theorem potential_replicate {walk replicated : Walk} {span : Nat} {count : UInt64}
    (h : walk.replicate span count = .ok replicated) :
    replicated.potential <
      2 ^ 64 * weight walk.template.size walk.position + pending walk.template.size walk.frames := by
  have heavy := weight_pos walk.template.size walk.position
  unfold replicate at h
  split at h
  · cases h
  split at h
  · cases h
    have := weight_anti walk.template.size (Nat.le_add_right walk.position span)
    unfold potential
    simp only
    omega
  next passes =>
    cases h
    have light := Nat.mul_lt_mul_of_pos_right count.toNat_lt heavy
    have positive : 0 < count.toNat := by
      apply Nat.pos_of_ne_zero
      intro zero
      exact passes (Or.inl (UInt64.toNat_inj.1 zero))
    have all := Nat.succ_mul (count.toNat - 1) (weight walk.template.size walk.position)
    rw [show (count.toNat - 1).succ = count.toNat by omega] at all
    unfold potential
    simp only [pending]
    omega

end Walk

end Bufr
