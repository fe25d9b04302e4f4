import Bufr.Proofs.Coding.Situation

/-!
What a template keeps out of its log: an event at an operator needs the operator in the template.
-/

namespace Bufr

namespace Walk

variable {resolver : Resolver} {walk rest : Walk} {op : Opcode} {events : List Event}

theorem mem_ops_of_next (next : walk.next = some (op, rest)) : op ∈ walk.template.ops := by
  unfold Walk.next at next
  split at next
  split at next
  · cases next
  next found =>
    cases next
    exact Array.mem_of_getElem? found

theorem template_of_replicate {span : Nat} {count : UInt64}
    (replicated : walk.replicate span count = .ok rest) : rest.template = walk.template := by
  cases replicates_of_replicate replicated <;> rfl

theorem Plays.mem_ops {behind : Walk} {code : Descriptor} (plays : walk.Plays resolver events)
    (mem : .operator behind code ∈ events) : .operator code ∈ walk.template.ops := by
  induction plays with
  | done => cases mem
  | element next _ ih =>
      rcases List.mem_cons.1 mem with same | mem
      · cases same
      · exact template_of_next next ▸ ih mem
  | operator next _ ih =>
      rcases List.mem_cons.1 mem with same | mem
      · cases same
        exact mem_ops_of_next next
      · exact template_of_next next ▸ ih mem
  | fixed next _ replicated _ ih =>
      exact template_of_next next ▸ template_of_replicate replicated ▸ ih mem
  | delayed next _ nextCount _ replicated _ ih =>
      rcases List.mem_cons.1 mem with same | mem
      · cases same
      · have kept := template_of_next next
        have kept' := template_of_next nextCount
        exact kept ▸ kept' ▸ template_of_replicate replicated ▸ ih mem

end Walk

def Template.Avoids (template : Template) (avoided : Operator → Prop) : Prop :=
  ∀ code op, .operator code ∈ template.ops → Operator.ofDescriptor code = .ok op → ¬avoided op

def Event.Avoids (avoided : Operator → Prop) : Event → Prop
  | .operator _ code => ∀ op, Operator.ofDescriptor code = .ok op → ¬avoided op
  | _ => True

theorem Walk.Plays.avoids {resolver : Resolver} {walk : Walk} {events : List Event}
    {avoided : Operator → Prop} (plays : walk.Plays resolver events)
    (avoids : walk.template.Avoids avoided) : ∀ event ∈ events, event.Avoids avoided := by
  intro event mem
  cases event with
  | operator behind code => exact fun op => avoids code op (plays.mem_ops mem)
  | element | count => trivial

namespace Situation

variable {resolver : Resolver} {σ σ₁ σ' : Situation} {event : Event} {events : List Event}
  {task : Task} {actions : List Action} {avoided : Operator → Prop}

theorem Log.induction {P : Situation → Prop} {Q : Action → Prop}
    (log : Log resolver σ events actions σ') (avoids : ∀ event ∈ events, event.Avoids avoided)
    (start : P σ)
    (step : ∀ {σ event task σ₁} (data : task.Data), Step resolver σ event task σ₁ →
      event.Avoids avoided → P σ → P (σ₁.record task data) ∧ Q ⟨task, data⟩) :
    P σ' ∧ ∀ action ∈ actions, Q action := by
  induction log with
  | nil => exact ⟨start, nofun⟩
  | cons data taskOk log ih =>
      obtain ⟨kept, first⟩ := step data (step_of_task taskOk) (avoids _ List.mem_cons_self) start
      obtain ⟨last, rest⟩ := ih (fun event mem => avoids event (List.mem_cons_of_mem _ mem)) kept
      exact ⟨last, List.forall_mem_cons.2 ⟨first, rest⟩⟩

end Situation

/-! ## Fields under the operators that a template has -/

/-- What holds of the modifiers from the start holds all along, when only operators of a kind that
the template avoids could end it. -/
structure Modifiers.Lasts (avoided : Operator → Prop) (P : Modifiers → Prop) : Prop where
  start : P .none
  apply {m modification} (kept : ¬avoided (.modify modification)) (holds : P m) :
    P (m.apply modification)
  gap {m} (gap : Nat) (holds : P m) : P { m with gap }
  references {m} (references : List (Descriptor × Int)) (holds : P m) : P { m with references }
  used {m} (holds : P m) : P { m with localWidth? := .none }

inductive Field.Under (resolver : Resolver) (P : Modifiers → Prop) : Field → Prop where
  | element {code info m m₁ m₂ field} (known : resolver.element code = .ok info) (before : P m)
      (holds : P m₁) (fieldOk : m₁.field info m.localWidth? = .ok (field, m₂)) :
      Under resolver P field
  | marker {kind target m₁ m₂ field} (holds : P m₁)
      (fieldOk : m₁.markerField resolver kind target = .ok (field, m₂)) : Under resolver P field
  | inserted (code : Descriptor) (octets : Nat) : Under resolver P (.inserted code octets)

def Task.Under (resolver : Resolver) (P : Modifiers → Prop) : Task → Prop
  | value _ field _ => field.Under resolver P
  | attach _ _ field _ => field.Under resolver P
  | unlisted _ width => ∃ m, P m ∧ m.localWidth? = some width
  | count code info _ => resolver.element code = .ok info
  | _ => True

namespace Modifiers

variable {avoided : Operator → Prop} {P : Modifiers → Prop} {m m' : Modifiers}

theorem Lasts.pass (lasts : Lasts avoided P) {code : Descriptor} {empty : Bool} (holds : P m)
    (passed : m.pass code = (empty, m')) : P m' := by
  unfold Modifiers.pass at passed
  split at passed <;> cases passed
  · exact holds
  · exact lasts.gap _ holds

theorem Lasts.field (lasts : Lasts avoided P) {info : ElementInfo} {localWidth? : Option Nat}
    {field : Field} (holds : P m) (fieldOk : m.field info localWidth? = .ok (field, m')) : P m' := by
  obtain ⟨_, _, _, _, _, _, rfl⟩ := Situation.field_ok_iff.1 fieldOk
  exact lasts.references _ holds

theorem markerField_ok {resolver : Resolver} {kind : BitmapKind} {target : Descriptor} {field : Field}
    (fieldOk : m.markerField resolver kind target = .ok (field, m')) :
    ∃ info own, resolver.element target = .ok info ∧ m.field info .none = .ok (own, m') ∧
      (field = own ∨ own.isText = false ∧ own.width ≤ 62 ∧
        field = { own with reference := -2 ^ own.width, width := own.width + 1 }) := by
  obtain ⟨info, known, fieldOk⟩ := bind_eq_ok.1 fieldOk
  obtain ⟨⟨own, m₁⟩, ownOk, fieldOk⟩ := bind_eq_ok.1 fieldOk
  simp only at fieldOk
  split at fieldOk
  next difference =>
    split at fieldOk
    · cases fieldOk
    next narrow =>
      cases fieldOk
      exact ⟨info, own, known, ownOk, Or.inr ⟨by simpa using difference.2, by omega, rfl⟩⟩
  · cases fieldOk
    exact ⟨info, _, known, ownOk, Or.inl rfl⟩

end Modifiers

namespace Situation

variable {resolver : Resolver} {σ σ' : Situation} {event : Event} {task : Task}
  {avoided : Operator → Prop} {P : Modifiers → Prop}

theorem under_of_step (lasts : Modifiers.Lasts avoided P) (step : Step resolver σ event task σ')
    (avoids : event.Avoids avoided) (holds : P σ.modifiers) (data : task.Data) :
    P (σ'.record task data).modifiers ∧ task.Under resolver P := by
  have behind_settle {σ₁ : Situation} (settled : σ.settle = .ok σ₁) : P σ₁.modifiers := by
    obtain ⟨_, _, rfl⟩ := settle_ok_iff.1 settled
    exact holds
  have behind_target {σ σ₁ : Situation} {target : Nat} {code : Descriptor}
      (found : σ.nextTarget = .ok (target, code, σ₁)) (holds : P σ.modifiers) : P σ₁.modifiers := by
    obtain ⟨_, _, _, rfl⟩ := nextTarget_ok_iff.1 found
    exact holds
  cases step with
  | define => exact ⟨lasts.references _ holds, trivial⟩
  | entry => exact ⟨holds, trivial⟩
  | unlisted begins _ _ localWidth =>
      have before := behind_settle begins.settled
      exact ⟨lasts.used before, _, before, localWidth⟩
  | skip begins _ gap =>
      have before := behind_settle begins.settled
      exact ⟨lasts.pass (lasts.used before) gap, trivial⟩
  | value begins known noGap fieldOk =>
      have before := behind_settle begins.settled
      have passed := lasts.pass (lasts.used before) noGap
      exact ⟨lasts.field passed fieldOk, .element known before passed fieldOk⟩
  | quality begins known noGap fieldOk _ found =>
      have before := behind_settle begins.settled
      have passed := lasts.pass (lasts.used before) noGap
      exact ⟨behind_target found (lasts.field passed fieldOk), .element known before passed fieldOk⟩
  | count known => exact ⟨holds, known⟩
  | modify op => exact ⟨lasts.apply (avoids _ op) holds, trivial⟩
  | insert _ settled =>
      have kept := behind_settle settled
      exact ⟨kept, .inserted _ _⟩
  | opens _ settled =>
      have kept := behind_settle settled
      exact ⟨kept, trivial⟩
  | marker _ settled _ found fieldOk =>
      have before := behind_target found (behind_settle settled)
      obtain ⟨_, _, _, ownOk, _⟩ := Modifiers.markerField_ok fieldOk
      exact ⟨lasts.field before ownOk, .marker before fieldOk⟩
  | keep | reuse | forget => exact ⟨holds, trivial⟩
  | cancel _ settled =>
      have kept := behind_settle settled
      exact ⟨kept, trivial⟩

theorem Logged.under {template : Template} {actions : List Action}
    (logged : Logged resolver template actions) (lasts : Modifiers.Lasts avoided P)
    (avoids : template.Avoids avoided) : ∀ action ∈ actions, action.task.Under resolver P := by
  obtain ⟨events, σ, _, plays, log, _⟩ := logged
  exact (log.induction (P := fun σ => P σ.modifiers) (Q := fun action => action.task.Under resolver P)
    (plays.avoids avoids) lasts.start
    fun data step avoids holds => under_of_step lasts step avoids holds data).2

end Situation

/-! ## Without operators on the scale -/

def Operator.IsOnScale (op : Operator) : Prop :=
  (∃ delta, op = .modify (.scale delta)) ∨ ∃ places, op = .modify (.precision places)

def Modifiers.Unscaled (m : Modifiers) : Prop := m.scaleDelta = 0 ∧ m.precision = 0

def Resolver.HasPlaces (resolver : Resolver) : Prop :=
  ∀ code info, resolver.element code = .ok info → -127 ≤ info.scale ∧ info.scale ≤ 128

theorem Modifiers.unscaled_lasts : Lasts Operator.IsOnScale Unscaled where
  start := ⟨rfl, rfl⟩
  apply {m modification} kept unscaled := by
    cases modification with
    | scale delta => exact absurd (Or.inl ⟨delta, rfl⟩) kept
    | precision places => exact absurd (Or.inr ⟨places, rfl⟩) kept
    | _ => exact unscaled
  gap _ unscaled := unscaled
  references _ unscaled := unscaled
  used unscaled := unscaled

theorem Modifiers.Unscaled.hasPlaces {m m' : Modifiers} {resolver : Resolver} {code : Descriptor}
    {info : ElementInfo} {localWidth? : Option Nat} {field : Field} (unscaled : m.Unscaled)
    (places : resolver.HasPlaces) (known : resolver.element code = .ok info)
    (fieldOk : m.field info localWidth? = .ok (field, m')) : field.HasPlaces := by
  obtain ⟨noDelta, noPlaces⟩ := unscaled
  obtain ⟨width, scale, reference, adjusted, _, rfl, _⟩ := Situation.field_ok_iff.1 fieldOk
  have same : scale = info.scale := by
    unfold Modifiers.adjusted at adjusted
    split at adjusted
    · split at adjusted <;> cases adjusted <;> rfl
    split at adjusted
    · cases adjusted
      rfl
    · cases adjusted
      rw [noDelta, Int.add_zero]
  unfold Field.HasPlaces
  exact same ▸ places code info known

theorem Situation.Logged.hasPlaces {resolver : Resolver} {template : Template} {actions : List Action}
    (logged : Logged resolver template actions) (places : resolver.HasPlaces)
    (avoids : template.Avoids Operator.IsOnScale) :
    ∀ action ∈ actions, action.task.HasPlaces action.data := by
  have placed {field : Field} (under : field.Under resolver Modifiers.Unscaled) :
      field.isText ∨ field.HasPlaces := by
    cases under with
    | element known _ unscaled fieldOk => exact Or.inr (unscaled.hasPlaces places known fieldOk)
    | marker unscaled fieldOk =>
        obtain ⟨info, own, known, ownOk, same⟩ := Modifiers.markerField_ok fieldOk
        have scaled := unscaled.hasPlaces places known ownOk
        rcases same with rfl | ⟨_, _, rfl⟩
        · exact Or.inr scaled
        · exact Or.inr scaled
    | inserted => exact Or.inl rfl
  intro action mem
  have under := logged.under Modifiers.unscaled_lasts avoids action mem
  obtain ⟨task, data⟩ := action
  cases task with
  | value | attach => exact (placed under).imp_right Or.inl
  | _ => trivial

/-! ## Without operators on the width -/

def Operator.IsOnWidth : Operator → Prop
  | modify (.width _) => True
  | modify (.precision _) => True
  | modify (.localWidth _) => True
  | _ => False

def Modifiers.Unwidened (m : Modifiers) : Prop :=
  m.widthDelta = 0 ∧ m.precision = 0 ∧ m.localWidth? = .none

def Resolver.IsNarrow (resolver : Resolver) : Prop :=
  ∀ code info, resolver.element code = .ok info → info.width ≤ 63

theorem Modifiers.unwidened_lasts : Lasts Operator.IsOnWidth Unwidened where
  start := ⟨rfl, rfl, rfl⟩
  apply {m modification} kept unwidened := by
    cases modification with
    | width | precision | localWidth => exact absurd trivial kept
    | _ => exact unwidened
  gap _ unwidened := unwidened
  references _ unwidened := unwidened
  used unwidened := ⟨unwidened.1, unwidened.2.1, rfl⟩

theorem Modifiers.Unwidened.narrow {m m' : Modifiers} {resolver : Resolver} {code : Descriptor}
    {info : ElementInfo} {field : Field} (unwidened : m.Unwidened) (narrow : resolver.IsNarrow)
    (known : resolver.element code = .ok info) (fieldOk : m.field info .none = .ok (field, m'))
    (number : field.isText = false) : field.width ≤ 63 := by
  obtain ⟨noDelta, noPlaces, _⟩ := unwidened
  obtain ⟨width, scale, reference, adjusted, _, rfl, _⟩ := Situation.field_ok_iff.1 fieldOk
  have small := narrow code info known
  have same : width = info.width := by
    unfold Modifiers.adjusted at adjusted
    rw [if_neg (Bool.eq_false_iff.1 number)] at adjusted
    split at adjusted
    · cases adjusted
      rfl
    · cases adjusted
      rw [noDelta, Int.add_zero]
  simp only [Option.elim, same, Int.toNat_natCast]
  exact small

theorem Situation.Logged.isNarrow {resolver : Resolver} {template : Template} {actions : List Action}
    (logged : Logged resolver template actions) (narrow : resolver.IsNarrow)
    (avoids : template.Avoids Operator.IsOnWidth) : ∀ action ∈ actions, action.task.IsNarrow := by
  have bounded {field : Field} (under : field.Under resolver Modifiers.Unwidened)
      (number : field.isText = false) : field.width ≤ 63 := by
    cases under with
    | element known before unwidened fieldOk =>
        rw [before.2.2] at fieldOk
        exact unwidened.narrow narrow known fieldOk number
    | marker unwidened fieldOk =>
        obtain ⟨info, own, known, ownOk, same⟩ := Modifiers.markerField_ok fieldOk
        rcases same with rfl | ⟨_, small, rfl⟩
        · exact unwidened.narrow narrow known ownOk number
        · exact Nat.succ_le_succ small
    | inserted => cases number
  intro action mem
  have under := logged.under Modifiers.unwidened_lasts avoids action mem
  obtain ⟨task, data⟩ := action
  cases task with
  | value | attach => exact bounded under
  | unlisted =>
      obtain ⟨m, unwidened, localWidth⟩ := under
      cases unwidened.2.2.symm.trans localWidth
  | count => exact narrow _ _ under
  | _ => trivial

/-! ## A short table -/

namespace Resolver

def among (elements : List ElementInfo) : Resolver where
  element d :=
    match elements.find? (·.code = d) with
    | some info => .ok info
    | none => .error (.unknownElement d)
  sequence d := .error (.unknownSequence d)
  repetition := repetitionOf

theorem mem_of_among {elements : List ElementInfo} {code : Descriptor} {info : ElementInfo}
    (known : (among elements).element code = .ok info) : info ∈ elements := by
  unfold among at known
  simp only at known
  split at known
  next found =>
    cases known
    exact List.mem_of_find?_eq_some found
  · cases known

theorem hasPlaces_among {elements : List ElementInfo}
    (places : ∀ info ∈ elements, -127 ≤ info.scale ∧ info.scale ≤ 128) :
    (among elements).HasPlaces :=
  fun _ info known => places info (mem_of_among known)

theorem isNarrow_among {elements : List ElementInfo} (narrow : ∀ info ∈ elements, info.width ≤ 63) :
    (among elements).IsNarrow :=
  fun _ info known => narrow info (mem_of_among known)

def station : Resolver := among [
  ⟨.element 1 15, "STATION OR SITE NAME", "CCITT IA5", 0, 0, 24, true⟩,
  ⟨.element 12 101, "TEMPERATURE/AIR TEMPERATURE", "K", 2, 0, 16, false⟩,
  ⟨.element 12 103, "DEWPOINT TEMPERATURE", "K", 2, 0, 16, false⟩,
  ⟨.element 31 1, "DELAYED DESCRIPTOR REPLICATION FACTOR", "Numeric", 0, 0, 8, false⟩,
  ⟨.element 31 31, "DATA PRESENT INDICATOR", "Flag table", 0, 0, 1, false⟩,
  ⟨.element 33 7, "PER CENT CONFIDENCE", "%", 0, 0, 7, false⟩]

theorem hasPlaces_station : station.HasPlaces := hasPlaces_among (by decide)

theorem isNarrow_station : station.IsNarrow := isNarrow_among (by decide)

end Resolver

end Bufr
