import Bufr.Proofs.Coding.Operators
import Bufr.Proofs.Coding.Writing
import Bufr.Proofs.Layout.Fields
import Bufr.Proofs.Template.Unrolled

/-!
The data section of templates whose operators change width, scale and text length only: one field
per variable, in the order in which the chain is unrolled.
-/

namespace Bufr

/-- The fields of the steps of an unrolled chain and the counts in them, behind earlier steps. -/
inductive LaidOut (resolver : Resolver) :
    List Opcode → List Opcode → List Variable → List UInt64 → Bits → Prop where
  | nil {earlier} : LaidOut resolver earlier [] [] [] []
  | element {earlier code info v steps vars counts x y} (known : resolver.element code = .ok info)
      (named : v.code = code) (holds : info.Holds earlier v.value x)
      (more : LaidOut resolver (.element code :: earlier) steps vars counts y) :
      LaidOut resolver earlier (.element code :: steps) (v :: vars) counts (x ++ y)
  | operator {earlier code steps vars counts x}
      (more : LaidOut resolver (.operator code :: earlier) steps vars counts x) :
      LaidOut resolver earlier (.operator code :: steps) vars counts x
  | fixed {earlier code span passes steps vars counts x}
      (counted : resolver.repetition code = .ok ⟨passes, false⟩)
      (more : LaidOut resolver (.replication code span :: earlier) steps vars counts x) :
      LaidOut resolver earlier (.replication code span :: steps) vars counts x
  | delayed {earlier code span unused element info v count steps vars counts x y}
      (counted : resolver.repetition code = .ok ⟨unused, true⟩)
      (known : resolver.element element = .ok info) (named : v.code = element)
      (is_count : v.count = .ok count) (holds : info.HoldsCount count x)
      (more : LaidOut resolver (.element element :: .replication code span :: earlier) steps vars
        counts y) :
      LaidOut resolver earlier (.replication code span :: .element element :: steps) (v :: vars)
        (count :: counts) (x ++ y)

/-! ## The steps behind the events -/

inductive Shows (resolver : Resolver) : List Opcode → List Event → Prop where
  | nil : Shows resolver [] []
  | element {code steps events} (more : Shows resolver steps events) :
      Shows resolver (.element code :: steps) (.element code :: events)
  | operator {code walk steps events} (more : Shows resolver steps events) :
      Shows resolver (.operator code :: steps) (.operator walk code :: events)
  | fixed {code span passes steps events} (counted : resolver.repetition code = .ok ⟨passes, false⟩)
      (more : Shows resolver steps events) :
      Shows resolver (.replication code span :: steps) events
  | delayed {code span unused element passes steps events}
      (counted : resolver.repetition code = .ok ⟨unused, true⟩) (more : Shows resolver steps events) :
      Shows resolver (.replication code span :: .element element :: steps)
        (.count code element passes :: events)

def Event.passes? : Event → Option UInt64
  | .count _ _ passes => some passes
  | _ => none

def Event.counts (events : List Event) : List UInt64 := events.filterMap passes?

variable {resolver : Resolver}

theorem Walk.Plays.shows {walk : Walk} {events : List Event} (plays : walk.Plays resolver events) :
    ∃ steps, Shows resolver steps events ∧
      ∀ supply, walk.trace resolver (Event.counts events ++ₛ supply) = .ok (steps, supply) := by
  induction plays with
  | done ended => exact ⟨[], .nil, fun supply => trace_done ended⟩
  | element next _ ih =>
      obtain ⟨steps, shows, traced⟩ := ih
      refine ⟨_, .element shows, fun supply => (trace_element next).trans ?_⟩
      exact congrArg _ (traced supply)
  | operator next _ ih =>
      obtain ⟨steps, shows, traced⟩ := ih
      refine ⟨_, .operator shows, fun supply => (trace_operator next).trans ?_⟩
      exact congrArg _ (traced supply)
  | @fixed walk rest again code span passes events next counted replicated _ ih =>
      obtain ⟨steps, shows, traced⟩ := ih
      refine ⟨.replication code span :: steps, .fixed counted shows,
        fun supply => (trace_fixed next counted replicated).trans ?_⟩
      exact congrArg _ (traced supply)
  | @delayed walk rest behind again code span unused element passes events next counted nextCount _
      replicated _ ih =>
      obtain ⟨steps, shows, traced⟩ := ih
      refine ⟨.replication code span :: .element element :: steps, .delayed counted shows,
        fun supply => Eq.trans (trace_delayed next counted nextCount replicated) ?_⟩
      exact congrArg _ (traced supply)

/-! ## One step -/

namespace Situation

variable {σ σ' : Situation} {task : Task} {code : Descriptor} {earlier : List Opcode}

structure Behind (earlier : List Opcode) (σ : Situation) : Prop where
  modifiers : σ.modifiers = .after earlier
  bitmap : σ.bitmap = .none

theorem behind_start : Behind [] start := ⟨rfl, rfl⟩

theorem Behind.settle (behind : σ.Behind earlier) (settled : σ.settle = .ok σ') : σ' = σ := by
  obtain ⟨bitmap, bitmapOk, rfl⟩ := settle_ok_iff.1 settled
  rw [behind.bitmap] at bitmapOk
  cases bitmapOk
  rw [← behind.bitmap]

theorem Behind.element (behind : σ.Behind earlier) (step : Step resolver σ (.element code) task σ') :
    ∃ info field, resolver.element code = .ok info ∧ task = .value code field 0 ∧
      (Modifiers.after earlier).field info none = .ok (field, .after earlier) ∧
      σ'.Behind (.element code :: earlier) := by
  have idle : σ.bitmap.isCollecting = false := by
    rw [behind.bitmap]
    rfl
  have unchanged {modifiers : Modifiers} {empty : Bool}
      (passed : σ.withoutLocal.modifiers.pass code = (empty, modifiers)) :
      empty = false ∧ modifiers = .after earlier := by
    rw [withoutLocal, behind.modifiers] at passed
    cases passed
    exact ⟨rfl, rfl⟩
  -- Of all that an element can be, only a value is left: the rest takes other operators before it.
  cases step with
  | define defining =>
      rw [behind.modifiers] at defining
      cases defining
  | entry _ collecting => cases idle.symm.trans collecting
  | unlisted begins _ _ localWidth =>
      rw [behind.settle begins.settled, behind.modifiers] at localWidth
      cases localWidth
  | skip begins _ gap =>
      rw [behind.settle begins.settled] at gap
      cases (unchanged gap).1
  | quality begins _ _ _ takes =>
      rw [behind.settle begins.settled, behind.bitmap] at takes
      simp [Bitmap.takesElement, Bitmap.none] at takes
  | value begins known noGap fieldOk free =>
      rw [behind.settle begins.settled] at noGap fieldOk ⊢
      obtain ⟨-, rfl⟩ := unchanged noGap
      rw [behind.modifiers] at fieldOk
      cases Modifiers.after_of_field fieldOk
      refine ⟨_, _, known, ?_, fieldOk, rfl, behind.bitmap⟩
      rw [Modifiers.associatedWidthOf]
      split <;> rfl

theorem Behind.operator {walk : Walk} (behind : σ.Behind earlier) (plain : code.isFormatChange)
    (step : Step resolver σ (.operator walk code) task σ') :
    task = .other ∧ σ'.Behind (.operator code :: earlier) := by
  have modified {op : Operator} (known : Operator.ofDescriptor code = .ok op) :=
    operator_of_isFormatChange plain known earlier
  cases step with
  | modify known =>
      obtain ⟨_, same, applied⟩ := modified known
      cases same
      refine ⟨rfl, ?_, behind.bitmap⟩
      rw [← applied, behind.modifiers]
  | insert known | opens known | marker known | keep known | reuse known | forget known
  | cancel known =>
      obtain ⟨_, same, _⟩ := modified known
      cases same

theorem Behind.count {replication : Descriptor} {passes : UInt64} (span : Nat)
    (behind : σ.Behind earlier)
    (step : Step resolver σ (.count replication code passes) task σ') :
    ∃ info, resolver.element code = .ok info ∧ task = .count code info passes ∧
      σ'.Behind (.element code :: .replication replication span :: earlier) := by
  cases step with
  | count known => exact ⟨_, known, rfl, behind.modifiers, behind.bitmap⟩

end Situation

/-! ## All steps -/

inductive Written (resolver : Resolver) (subset : Subset) :
    Situation → Supply → List Event → Bits → Prop where
  | nil {σ supply} (all : supply.taken = subset.size) : Written resolver subset σ supply [] []
  | cons {σ σ₁ supply supply₁ event events action x y}
      (step : Situation.Step resolver σ event action.task σ₁)
      (first : Supplies resolver subset supply action supply₁) (writes : action.Writes x)
      (more : Written resolver subset (σ₁.record action.task action.data) supply₁ events y) :
      Written resolver subset σ supply (event :: events) (x ++ y)

theorem written_of_log {subset : Subset} {events : List Event} {σ σ' : Situation}
    {actions : List Action} {supply : Supply} {defined : Nat} {x : Bits}
    (log : Situation.Log resolver σ events actions σ')
    (spelled : Bits.Spelled Action.Writes actions x)
    (supplied : SuppliesAll resolver subset supply actions ⟨subset.size, defined, []⟩) :
    Written resolver subset σ supply events x := by
  induction log generalizing supply x with
  | nil =>
      cases spelled
      cases supplied
      exact .nil rfl
  | cons data taskOk _ ih =>
      cases spelled with
      | cons writes spelled =>
          cases supplied with
          | cons first supplied =>
              exact .cons (Situation.step_of_task taskOk) first writes (ih spelled supplied)

theorem holdsCount_of_writes {code : Descriptor} {info : ElementInfo} {passes : UInt64} {x : Bits}
    (written : Task.Writes (.count code info passes) () x) : info.HoldsCount passes x := by
  obtain ⟨narrow, _, raw, _, fits, sum, rfl⟩ := written
  refine ⟨Bits.length_ofNat _ _, ?_⟩
  rw [Bits.toNat_ofNat_of_le narrow fits, sum, ElementInfo.referenceWord, Int.add_sub_cancel]

theorem laidOut_of_shows {subset : Subset} {steps earlier : List Opcode} {events : List Event}
    {σ : Situation} {supply : Supply} {x : Bits} (shows : Shows resolver steps events)
    (plain : ∀ walk code, .operator walk code ∈ events → code.isFormatChange)
    (written : Written resolver subset σ supply events x) (behind : σ.Behind earlier) :
    LaidOut resolver earlier steps (subset.vars.toList.drop supply.taken) (Event.counts events) x := by
  -- On the steps; fixed replications are no events and leave the situation as it is.
  induction shows generalizing earlier σ supply x with
  | nil =>
      cases written with
      | nil all =>
          have none : subset.vars.toList.drop supply.taken = [] :=
            List.drop_eq_nil_of_le (all ▸ Nat.le_refl _)
          rw [none]
          exact .nil
  | element _ ih =>
      have others walk code mem := plain walk code (List.mem_cons_of_mem _ mem)
      cases written with
      | @cons _ _ _ _ _ _ action _ _ step first writes more =>
          obtain ⟨task, data⟩ := action
          obtain ⟨info, field, known, rfl, fieldOk, behind⟩ := behind.element step
          cases first with
          | value _ found named =>
              obtain ⟨y, z, rfl, none, writes⟩ := writes
              cases none
              rw [drop_of_getElem? found]
              exact .element known named (Modifiers.holds_of_field fieldOk writes)
                (ih others more behind)
  | operator _ ih =>
      have others walk code mem := plain walk code (List.mem_cons_of_mem _ mem)
      cases written with
      | @cons _ _ _ _ _ _ action _ _ step first writes more =>
          obtain ⟨task, data⟩ := action
          obtain ⟨rfl, behind⟩ := behind.operator (plain _ _ List.mem_cons_self) step
          cases first
          cases writes
          exact .operator (ih others more behind)
  | fixed counted _ ih =>
      exact .fixed counted (ih plain written ⟨behind.modifiers, behind.bitmap⟩)
  | @delayed code span unused element passes steps events counted _ ih =>
      have others walk code mem := plain walk code (List.mem_cons_of_mem _ mem)
      cases written with
      | @cons _ _ _ _ _ _ action _ _ step first writes more =>
          obtain ⟨task, data⟩ := action
          obtain ⟨info, known, rfl, behind⟩ := behind.count span step
          cases first with
          | count found named is_count =>
              rw [drop_of_getElem? found]
              exact .delayed counted known named is_count (holdsCount_of_writes writes)
                (ih others more behind)

def Subset.LaidOutBy (resolver : Resolver) (chain : Chain) (subset : Subset) (x : Bits) : Prop :=
  ∃ counts steps, (∀ supply, Unrolls resolver chain (counts ++ₛ supply) steps supply) ∧
    LaidOut resolver [] steps subset.vars.toList counts x

theorem laidOutBy_of_writing {chain : Chain} {template : Template} {subset : Subset}
    {actions : List Action} {x : Bits} (flat : Expands resolver chain template.ops.toList)
    (plain : ∀ code, .operator code ∈ template.ops → code.isFormatChange)
    (writing : Writing resolver template subset actions x) : subset.LaidOutBy resolver chain x := by
  obtain ⟨⟨events, σ, σ', plays, log, _⟩, spelled, defined, supplied⟩ := writing
  obtain ⟨steps, shows, traced⟩ := plays.shows
  refine ⟨Event.counts events, steps, fun supply => ?_, ?_⟩
  · obtain ⟨unrolled, left, unrolls⟩ := flat.unrolls (Event.counts events ++ₛ supply)
    cases (traced supply).symm.trans (Walk.trace_start flat unrolls)
    exact unrolls
  · exact laidOut_of_shows shows (fun walk code mem => plain code (plays.mem_ops mem))
      (written_of_log log spelled supplied) Situation.behind_start

/-- Subset after subset, with zeros only behind the last one. -/
theorem encodeSubsets_laidOut {chain : Chain} {template : Template} {subsets : List Subset}
    {data : Octets} (expanded : Template.expand resolver chain = .ok template)
    (plain : ∀ code, .operator code ∈ template.ops → code.isFormatChange)
    (encoded : encodeSubsets resolver template subsets = .ok data) :
    ∃ x filling, Bits.Spelled (Subset.LaidOutBy resolver chain) subsets x ∧ filling < 8 ∧
      Bits.ofOctets data = x ++ List.replicate filling false := by
  obtain ⟨x, spelled, rfl⟩ := encodeSubsets_ok_iff.1 encoded
  have filled := Bits.Writer.ofOctets_finish (Bits.Writer.empty.push x)
  rw [Bits.Writer.bits_push, Bits.Writer.bits_empty, List.nil_append] at filled
  refine ⟨x, _, ?_, Nat.mod_lt _ (by decide), filled⟩
  have flat := Expands.of_expand expanded
  clear encoded filled
  induction spelled with
  | nil => exact .nil
  | cons first _ ih =>
      obtain ⟨actions, writing⟩ := first
      exact .cons (laidOutBy_of_writing flat plain writing) ih

def finerLevels : Chain :=
  [.replication 4 0, .element 31 1, .element 12 101, .operator 1 131, .operator 2 129,
    .operator 8 2, .element 1 15]

def finerTemplate : Template := ⟨#[.replication (.replication 4 0) 4, .element (.element 31 1),
  .element (.element 12 101), .operator (.operator 1 131), .operator (.operator 2 129),
  .operator (.operator 8 2), .element (.element 1 15)]⟩

def finerReports : List Subset :=
  [⟨#[.ofValue (.element 31 1) (.integer 2), .ofValue (.element 12 101) (.decimal 27315 (-2)),
      .ofValue (.element 12 101) (.decimal 273154 (-3)), .ofValue (.element 1 15) (.text "Abc")], #[]⟩,
    ⟨#[.ofValue (.element 31 1) (.integer 1), .missing (.element 12 101),
      .missing (.element 1 15)], #[]⟩]

theorem isFormatChange_finerTemplate {code : Descriptor}
    (mem : .operator code ∈ finerTemplate.ops) : code.isFormatChange := by
  have one : code = .operator 1 131 ∨ code = .operator 2 129 ∨ code = .operator 8 2 := by
    simpa [finerTemplate] using mem
  rcases one with rfl | rfl | rfl <;> rfl

theorem encodeSubsets_laidOut_finerReports :
    ∃ x filling, Bits.Spelled (Subset.LaidOutBy Resolver.station finerLevels) finerReports x ∧
      filling < 8 ∧ Bits.ofOctets [2, 106, 179, 133, 96, 72, 44, 64, 63, 255, 255, 255, 224] =
        x ++ List.replicate filling false :=
  @encodeSubsets_laidOut Resolver.station finerLevels finerTemplate finerReports _
    (by decide +kernel) (fun _ => isFormatChange_finerTemplate) (by decide +kernel)

end Bufr
