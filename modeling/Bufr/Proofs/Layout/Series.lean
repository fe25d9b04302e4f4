import Bufr.Proofs.Coding.Consumption
import Bufr.Proofs.Layout.Asking

/-!
Elements and counts in a row, while no operators are in effect but those that define reference values
and those that leave data out. Of a situation only the values still to be used and the elements left in
the run without data matter then.
-/

namespace Bufr

open Situation (Log)

def Descriptor.keepsData (code : Descriptor) : Bool :=
  1 ≤ code.x && code.x ≤ 9 || code.x == 31

def Event.isElement : Event → Bool
  | .element _ => true
  | _ => false

def ElementInfo.fieldFrom (info : ElementInfo) (reference : Int) : Field :=
  ⟨info.code, info.width, info.scale, reference, info.isText⟩

namespace Modifiers

variable {references : List (Descriptor × Int)} {gap : Nat} {code : Descriptor} {info : ElementInfo}
  {field : Field} {m : Modifiers}

def bare (references : List (Descriptor × Int)) (gap : Nat) : Modifiers :=
  { none with references, gap }

theorem pass_bare : (bare references gap).pass code =
    (gap != 0 && !code.keepsData, bare references (gap - 1)) := by
  cases gap <;> rfl

theorem adjusted_bare : (bare references gap).adjusted info =
    .ok (info.width, info.scale, info.reference) := by
  simp [adjusted, bare, none]

def wordOf (references : List (Descriptor × Int)) (info : ElementInfo) : Int :=
  (Int64.ofInt ((references.lookup info.code).getD info.reference)).toInt

theorem field_bare_iff : (bare references gap).field info .none = .ok (field, m) ↔
    isWidth info.isText info.width ∧ field = info.fieldFrom (wordOf references info) ∧
      m = bare (without info.code references) gap := by
  rw [Situation.field_ok_iff, adjusted_bare]
  constructor
  · rintro ⟨_, _, _, adjusted, isWidth, rfl, rfl⟩
    cases adjusted
    exact ⟨isWidth, rfl, rfl⟩
  · rintro ⟨isWidth, rfl, rfl⟩
    exact ⟨_, _, _, rfl, isWidth, rfl, rfl⟩

end Modifiers

open Modifiers (bare wordOf without isWidth pass_bare field_bare_iff)

/-- What is done at elements and counts, with the values still to be used and the elements left in the
run. -/
inductive Series (resolver : Resolver) :
    List (Descriptor × Int) → Nat → List Event → List Action → Prop where
  | nil {references gap} : Series resolver references gap [] []
  | lost {references gap code info events actions} (known : resolver.element code = .ok info)
      (lost : code.keepsData = false) (more : Series resolver references gap events actions) :
      Series resolver references (gap + 1) (.element code :: events) (⟨.skip code, ()⟩ :: actions)
  | value {references gap code info data events actions} (known : resolver.element code = .ok info)
      (kept : gap = 0 ∨ code.keepsData) (fits : isWidth info.isText info.width)
      (more : Series resolver (without info.code references) (gap - 1) events actions) :
      Series resolver references gap (.element code :: events)
        (⟨.value code (info.fieldFrom (wordOf references info)) 0, data⟩ :: actions)
  | count {references gap replication code info passes events actions}
      (known : resolver.element code = .ok info)
      (more : Series resolver references gap events actions) :
      Series resolver references gap (.count replication code passes :: events)
        (⟨.count code info passes, ()⟩ :: actions)

variable {resolver : Resolver} {references : List (Descriptor × Int)} {gap : Nat}
  {events : List Event} {actions : List Action} {code : Descriptor}

/-! ## Situations -/

namespace Situation

variable {σ σ' : Situation} {task : Task}

structure IsBare (references : List (Descriptor × Int)) (gap : Nat) (σ : Situation) : Prop where
  modifiers : σ.modifiers = bare references gap
  bitmap : σ.bitmap = .none

theorem isBare_start : IsBare [] 0 start := ⟨rfl, rfl⟩

theorem IsBare.emit (isBare : σ.IsBare references gap) (code : Descriptor) :
    (σ.emit code).IsBare references gap :=
  ⟨isBare.modifiers, isBare.bitmap⟩

theorem IsBare.settle_iff (isBare : σ.IsBare references gap) : σ.settle = .ok σ' ↔ σ' = σ := by
  rw [settle_ok_iff, isBare.bitmap]
  constructor
  · rintro ⟨bitmap, settled, rfl⟩
    cases settled
    rw [← isBare.bitmap]
  · rintro rfl
    exact ⟨_, rfl, by rw [← isBare.bitmap]⟩

theorem IsBare.begins_iff (isBare : σ.IsBare references gap) : σ.Begins code σ' ↔ σ' = σ := by
  constructor
  · intro begins
    exact isBare.settle_iff.1 begins.settled
  · rintro rfl
    refine ⟨by rw [isBare.modifiers]; rfl, ?_, isBare.settle_iff.2 rfl⟩
    rw [isBare.bitmap]
    exact fun both => Bool.false_ne_true both.2

theorem IsBare.pass (isBare : σ.IsBare references gap) (code : Descriptor) :
    σ.withoutLocal.modifiers.pass code = (gap != 0 && !code.keepsData, bare references (gap - 1)) := by
  rw [withoutLocal, isBare.modifiers]
  exact pass_bare

theorem IsBare.element (isBare : σ.IsBare references gap)
    (step : Step resolver σ (.element code) task σ') :
    ∃ info, resolver.element code = .ok info ∧
      ((∃ rest, gap = rest + 1 ∧ code.keepsData = false ∧ task = .skip code ∧
          σ'.IsBare references rest) ∨
        ((gap = 0 ∨ code.keepsData) ∧ isWidth info.isText info.width ∧
          task = .value code (info.fieldFrom (wordOf references info)) 0 ∧
          σ'.IsBare (without info.code references) (gap - 1))) := by
  cases step with
  | define defining =>
      rw [isBare.modifiers] at defining
      cases defining
  | entry _ collecting =>
      rw [isBare.bitmap] at collecting
      cases collecting
  | unlisted begins _ _ localWidth =>
      cases isBare.begins_iff.1 begins
      rw [isBare.modifiers] at localWidth
      cases localWidth
  | skip begins known gapOpen =>
      cases isBare.begins_iff.1 begins
      rw [isBare.pass] at gapOpen
      obtain ⟨taken, rfl⟩ := Prod.mk.inj gapOpen
      simp only [Bool.and_eq_true, bne_iff_ne, Bool.not_eq_true'] at taken
      obtain ⟨rest, rfl⟩ := Nat.exists_eq_succ_of_ne_zero taken.1
      exact ⟨_, known, Or.inl ⟨rest, rfl, taken.2, rfl, rfl, isBare.bitmap⟩⟩
  | value begins known noGap fieldOk =>
      cases isBare.begins_iff.1 begins
      rw [isBare.pass] at noGap
      obtain ⟨free, rfl⟩ := Prod.mk.inj noGap
      rw [isBare.modifiers] at fieldOk
      obtain ⟨fits, rfl, rfl⟩ := field_bare_iff.1 fieldOk
      have kept : gap = 0 ∨ code.keepsData := by
        by_contra neither
        simp_all
      refine ⟨_, known, Or.inr ⟨kept, fits, ?_, rfl, isBare.bitmap⟩⟩
      rw [Modifiers.associatedWidthOf]
      split <;> rfl
  | quality begins _ _ _ takes =>
      cases isBare.begins_iff.1 begins
      rw [isBare.bitmap] at takes
      simp [Bitmap.takesElement, Bitmap.none] at takes

theorem IsBare.lost {info : ElementInfo} (isBare : σ.IsBare references (gap + 1))
    (known : resolver.element code = .ok info) (lost : code.keepsData = false) :
    ∃ σ', Step resolver σ (.element code) (.skip code) σ' ∧ σ'.IsBare references gap := by
  have gapOpen : σ.withoutLocal.modifiers.pass code = (true, bare references gap) := by
    rw [isBare.pass, lost]
    rfl
  exact ⟨_, .skip (isBare.begins_iff.2 rfl) known gapOpen, rfl, isBare.bitmap⟩

theorem IsBare.value {info : ElementInfo} (isBare : σ.IsBare references gap)
    (known : resolver.element code = .ok info) (kept : gap = 0 ∨ code.keepsData)
    (fits : isWidth info.isText info.width) :
    ∃ σ', Step resolver σ (.element code)
        (.value code (info.fieldFrom (wordOf references info)) 0) σ' ∧
      σ'.IsBare (without info.code references) (gap - 1) := by
  have noGap : σ.withoutLocal.modifiers.pass code = (false, bare references (gap - 1)) := by
    rw [isBare.pass]
    rcases kept with rfl | kept <;> simp [*]
  have noLocal : σ.modifiers.localWidth? = none := by rw [isBare.modifiers]; rfl
  have fieldOk : (bare references (gap - 1)).field info σ.modifiers.localWidth? =
      .ok (info.fieldFrom (wordOf references info), bare (without info.code references) (gap - 1)) := by
    rw [noLocal]
    exact field_bare_iff.2 ⟨fits, rfl, rfl⟩
  have free : σ.bitmap.takesElement code = false := by
    rw [isBare.bitmap]
    simp [Bitmap.takesElement, Bitmap.none]
  have unassociated : (bare (without info.code references) (gap - 1)).associatedWidthOf code = 0 := by
    rw [Modifiers.associatedWidthOf]
    split <;> rfl
  have step := Step.value (isBare.begins_iff.2 rfl) known noGap fieldOk free
  rw [unassociated] at step
  exact ⟨_, step, rfl, isBare.bitmap⟩

theorem IsBare.series (isBare : σ.IsBare references gap) (log : Log resolver σ events actions σ')
    (plain : ∀ event ∈ events, event.IsPlain) :
    Series resolver references gap events actions ∧ σ'.settle = .ok σ' := by
  induction log generalizing references gap with
  | nil => exact ⟨.nil, isBare.settle_iff.2 rfl⟩
  | @cons σ σ₁ σ' event events task actions data taskOk _ ih =>
      obtain ⟨first, others⟩ := List.forall_mem_cons.1 plain
      have step := step_of_task taskOk
      cases event with
      | element code =>
          obtain ⟨info, known, ⟨rest, rfl, lost, rfl, isBare⟩ | ⟨kept, fits, rfl, isBare⟩⟩ :=
            isBare.element step
          · obtain ⟨series, settled⟩ := ih isBare others
            exact ⟨.lost known lost series, settled⟩
          · obtain ⟨series, settled⟩ := ih isBare others
            exact ⟨.value known kept fits series, settled⟩
      | operator => cases first
      | count replication code passes =>
          cases step with
          | count known =>
              obtain ⟨series, settled⟩ := ih (isBare.emit code) others
              exact ⟨.count known series, settled⟩

theorem IsBare.log (isBare : σ.IsBare references gap)
    (series : Series resolver references gap events actions) :
    ∃ σ' references', Log resolver σ events actions σ' ∧
      σ'.IsBare references' (gap - events.countP Event.isElement) := by
  induction series generalizing σ with
  | nil => exact ⟨σ, _, .nil, isBare⟩
  | @lost _ gap code _ events _ known lost _ ih =>
      obtain ⟨σ₁, step, isBare⟩ := isBare.lost known lost
      obtain ⟨σ', references', log, isBare'⟩ := ih isBare
      refine ⟨σ', references', .cons () (task_of_step step) log, ?_⟩
      rwa [List.countP_cons_of_pos rfl, Nat.add_sub_add_right]
  | value known kept fits _ ih =>
      obtain ⟨σ₁, step, isBare⟩ := isBare.value known kept fits
      obtain ⟨σ', references', log, isBare'⟩ := ih isBare
      refine ⟨σ', references', .cons _ (task_of_step step) log, ?_⟩
      rwa [List.countP_cons_of_pos rfl, Nat.add_comm, Nat.sub_add_eq]
  | count known _ ih =>
      obtain ⟨σ', references', log, isBare'⟩ := ih (isBare.emit _)
      refine ⟨σ', references', .cons () (task_of_step (.count known)) log, ?_⟩
      rwa [List.countP_cons_of_neg Bool.false_ne_true]

end Situation

/-! ## Variables -/

theorem Series.length (series : Series resolver references gap events actions) :
    actions.length = events.length := by
  induction series with
  | nil => rfl
  | lost _ _ _ ih | value _ _ _ _ ih | count _ _ ih => rw [List.length_cons, List.length_cons, ih]

def Action.Leaves (action : Action) (v : Variable) : Prop := action.fresh? = some v

theorem Series.leaves (series : Series resolver references gap events actions) :
    ∃ vars, List.Forall₂ Action.Leaves actions vars := by
  induction series with
  | nil => exact ⟨[], .nil⟩
  | lost _ _ _ ih | value _ _ _ _ ih | count _ _ ih =>
      obtain ⟨vars, leaves⟩ := ih
      exact ⟨_ :: vars, .cons rfl leaves⟩

theorem Subset.recordAll_of_leaves {vars : List Variable}
    (leaves : List.Forall₂ Action.Leaves actions vars) (subset : Subset) :
    subset.recordAll actions = ⟨subset.vars ++ vars.toArray, subset.references⟩ := by
  induction leaves generalizing subset with
  | nil => simp [recordAll]
  | @cons action v actions vars first _ ih =>
      have recorded : subset.record action = subset.push v := by
        obtain ⟨task, data⟩ := action
        cases task <;> cases first <;> rfl
      show (subset.record action).recordAll actions = _
      rw [recorded, ih]
      simp [push]

theorem Subset.vars_of_leaves {vars : List Variable}
    (leaves : List.Forall₂ Action.Leaves actions vars) :
    (Subset.empty.recordAll actions).vars.toList = vars := by
  rw [recordAll_of_leaves leaves]
  simp [empty]

theorem Supplies.leaves_iff {subset : Subset} {taken defined : Nat} {action : Action}
    {supply : Supply} {u : Variable} (leaves : action.Leaves u) :
    Supplies resolver subset ⟨taken, defined, []⟩ action supply ↔
      ∃ v, subset.vars[taken]? = some v ∧ action.Codes v ∧ supply = ⟨taken + 1, defined, []⟩ := by
  constructor
  · intro supplied
    cases supplied with
    | skip _ found named missing => exact ⟨_, found, ⟨named, missing⟩, rfl⟩
    | count found named counted => exact ⟨_, found, ⟨named, counted⟩, rfl⟩
    | unlisted _ found named | value _ found named => exact ⟨_, found, ⟨named, rfl⟩, rfl⟩
    | _ => cases leaves
  · rintro ⟨v, found, codes, rfl⟩
    obtain ⟨task, data⟩ := action
    cases task with
    | skip => exact .skip rfl found codes.1 codes.2
    | count => exact .count found codes.1 codes.2
    | unlisted =>
        obtain ⟨named, rfl⟩ := codes
        exact .unlisted rfl found named
    | value =>
        obtain ⟨named, rfl⟩ := codes
        exact .value rfl found named
    | _ => cases leaves

theorem SuppliesAll.leaves_iff {subset : Subset} {taken defined : Nat} {supply : Supply}
    {us : List Variable} (leaves : List.Forall₂ Action.Leaves actions us) :
    SuppliesAll resolver subset ⟨taken, defined, []⟩ actions supply ↔
      ∃ vars others, subset.vars.toList.drop taken = vars ++ others ∧
        List.Forall₂ Action.Codes actions vars ∧ supply = ⟨taken + vars.length, defined, []⟩ := by
  induction leaves generalizing taken with
  | nil =>
      constructor
      · intro supplied
        cases supplied
        exact ⟨[], _, rfl, .nil, rfl⟩
      · rintro ⟨_, _, _, all, rfl⟩
        cases all
        exact .nil
  | cons first _ ih =>
      constructor
      · intro supplied
        cases supplied with
        | cons supplied more =>
            obtain ⟨v, found, codes, rfl⟩ := (Supplies.leaves_iff first).1 supplied
            obtain ⟨vars, behind, here, all, rfl⟩ := ih.1 more
            refine ⟨v :: vars, behind, ?_, .cons codes all, ?_⟩
            · rw [drop_of_getElem? found, here, List.cons_append]
            · rw [List.length_cons, Nat.add_assoc, Nat.add_comm 1]
      · rintro ⟨_, behind, here, all, rfl⟩
        cases all with
        | @cons _ v _ vars codes all =>
            have found : subset.vars[taken]? = some v := by
              rw [← Array.getElem?_toList, ← List.head?_drop, here]
              rfl
            have rest : subset.vars.toList.drop (taken + 1) = vars ++ behind := by
              rw [← List.tail_drop, here]
              rfl
            refine .cons ((Supplies.leaves_iff first).2 ⟨v, found, codes, rfl⟩)
              (ih.2 ⟨vars, behind, rest, all, ?_⟩)
            rw [List.length_cons, Nat.add_assoc, Nat.add_comm 1]

theorem SuppliesAll.whole_iff {subset : Subset} {defined defined' : Nat} {us : List Variable}
    (leaves : List.Forall₂ Action.Leaves actions us) :
    SuppliesAll resolver subset ⟨0, defined, []⟩ actions ⟨subset.size, defined', []⟩ ↔
      List.Forall₂ Action.Codes actions subset.vars.toList ∧ defined' = defined := by
  rw [leaves_iff leaves]
  constructor
  · rintro ⟨vars, others, here, all, same⟩
    obtain ⟨long, rfl, -⟩ := Supply.mk.injEq .. ▸ same
    have short := congrArg List.length here
    rw [List.drop_zero, List.length_append, Array.length_toList] at short
    have none : others = [] := List.length_eq_zero_iff.1 (by rw [Subset.size] at long; omega)
    rw [List.drop_zero, none, List.append_nil] at here
    exact ⟨here ▸ all, rfl⟩
  · rintro ⟨all, rfl⟩
    exact ⟨_, [], (List.append_nil _).symm, all, by simp [Subset.size]⟩

end Bufr
