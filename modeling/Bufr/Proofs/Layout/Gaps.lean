import Bufr.Proofs.Layout.Series
import Bufr.Proofs.Template.Concatenation

/-!
Runs without data. The elements of a run that have no data are left out of the bits, and of the subset
nothing but their values: what remains is coded as if the run and these elements were not there.
-/

namespace Bufr

open Situation (Log)

def Event.keepsData : Event → Bool
  | .element code => code.keepsData
  | _ => true

/-- The events in front are those of a run of so many elements, which the last event can cut short. -/
def IsRun (elements : Nat) (front back : List Event) : Prop :=
  front.countP Event.isElement = elements ∨ front.countP Event.isElement < elements ∧ back = []

/-- The second list has something empty for each event that has no data in the run, the first one
leaves it out. -/
inductive Fills {α : Type} (empty : Descriptor → α → Prop) : List Event → List α → List α → Prop where
  | behind {as} : Fills empty [] as as
  | kept {event events a as bs} (keeps : event.keepsData) (more : Fills empty events as bs) :
      Fills empty (event :: events) (a :: as) (a :: bs)
  | lost {code events a as bs} (loses : code.keepsData = false) (isEmpty : empty code a)
      (more : Fills empty events as bs) : Fills empty (.element code :: events) as (a :: bs)

variable {resolver : Resolver} {elements : Nat} {front back : List Event} {code : Descriptor}

theorem isRun_element {event : Event} (isElement : event.isElement) :
    IsRun elements (event :: front) back ↔ ∃ rest, elements = rest + 1 ∧ IsRun rest front back := by
  unfold IsRun
  rw [List.countP_cons_of_pos isElement]
  constructor
  · rintro (rfl | ⟨less, rfl⟩)
    · exact ⟨_, rfl, Or.inl rfl⟩
    · exact ⟨elements - 1, by omega, Or.inr ⟨by omega, rfl⟩⟩
  · rintro ⟨rest, rfl, rfl | ⟨less, rfl⟩⟩
    · exact Or.inl rfl
    · exact Or.inr ⟨by omega, rfl⟩

theorem isRun_other {event : Event} (other : event.isElement = false) :
    IsRun elements (event :: front) back ↔ IsRun elements front back := by
  unfold IsRun
  rw [List.countP_cons_of_neg (Bool.eq_false_iff.1 other)]

theorem exists_isRun (elements : Nat) (events : List Event) :
    ∃ front back, events = front ++ back ∧ IsRun elements front back := by
  induction events generalizing elements with
  | nil =>
      refine ⟨[], [], rfl, ?_⟩
      rcases Nat.eq_zero_or_pos elements with rfl | positive
      · exact Or.inl rfl
      · exact Or.inr ⟨positive, rfl⟩
  | cons event events ih =>
      cases elements with
      | zero => exact ⟨[], event :: events, rfl, Or.inl rfl⟩
      | succ rest =>
          by_cases isElement : event.isElement
          · obtain ⟨front, back, rfl, run⟩ := ih rest
            exact ⟨event :: front, back, rfl, (isRun_element isElement).2 ⟨rest, rfl, run⟩⟩
          · obtain ⟨front, back, rfl, run⟩ := ih (rest + 1)
            exact ⟨event :: front, back, rfl, (isRun_other (Bool.eq_false_iff.2 isElement)).2 run⟩

theorem Fills.length {α : Type} {empty : Descriptor → α → Prop} {as bs : List α}
    (fills : Fills empty front as bs) :
    bs.length + (front.filter Event.keepsData).length = as.length + front.length := by
  induction fills with
  | behind => rfl
  | kept keeps _ ih =>
      rw [List.filter_cons_of_pos keeps]
      simp only [List.length_cons]
      omega
  | lost loses _ _ ih =>
      rw [List.filter_cons_of_neg (by simpa [Event.keepsData] using loses)]
      simp only [List.length_cons]
      omega

theorem fills_comp {α β : Type} {empty : Descriptor → α → Prop} {empty' : Descriptor → β → Prop}
    {R : α → β → Prop} (same : ∀ code b, (∃ a, empty code a ∧ R a b) ↔ empty' code b)
    {as : List α} {bs : List β} :
    (∃ filled, Fills empty front as filled ∧ List.Forall₂ R filled bs) ↔
      ∃ kept, List.Forall₂ R as kept ∧ Fills empty' front kept bs := by
  constructor
  · rintro ⟨filled, fills, all⟩
    induction fills generalizing bs with
    | behind => exact ⟨bs, all, .behind⟩
    | kept keeps _ ih =>
        cases all with
        | cons first all =>
            obtain ⟨kept, all, fills⟩ := ih all
            exact ⟨_, .cons first all, .kept keeps fills⟩
    | lost loses isEmpty _ ih =>
        cases all with
        | cons first all =>
            obtain ⟨kept, all, fills⟩ := ih all
            exact ⟨kept, all, .lost loses ((same _ _).1 ⟨_, isEmpty, first⟩) fills⟩
  · rintro ⟨kept, all, fills⟩
    induction fills generalizing as with
    | behind => exact ⟨as, .behind, all⟩
    | kept keeps _ ih =>
        cases all with
        | cons first all =>
            obtain ⟨filled, fills, all⟩ := ih all
            exact ⟨_, .kept keeps fills, .cons first all⟩
    | lost loses isEmpty _ ih =>
        obtain ⟨a, isEmpty, first⟩ := (same _ _).2 isEmpty
        obtain ⟨filled, fills, all⟩ := ih all
        exact ⟨a :: filled, .lost loses isEmpty fills, .cons first all⟩

/-! ## Actions -/

def Action.Skips (code : Descriptor) (action : Action) : Prop := action = ⟨.skip code, ()⟩

theorem skips_leaves_iff (code : Descriptor) (v : Variable) :
    (∃ action, Action.Skips code action ∧ action.Leaves v) ↔ v = .missing code := by
  constructor
  · rintro ⟨_, rfl, leaves⟩
    cases leaves
    rfl
  · rintro rfl
    exact ⟨_, rfl, rfl⟩

theorem skips_codes_iff (code : Descriptor) (v : Variable) :
    (∃ action, Action.Skips code action ∧ action.Codes v) ↔ v.code = code ∧ v.value = .missing := by
  constructor
  · rintro ⟨_, rfl, codes⟩
    exact codes
  · intro codes
    exact ⟨_, rfl, codes⟩

theorem Series.fills {references : List (Descriptor × Int)} {actions : List Action}
    (series : Series resolver references elements (front ++ back) actions)
    (run : IsRun elements front back) :
    ∃ kept, Series resolver references 0 (front.filter Event.keepsData ++ back) kept ∧
      Fills Action.Skips front kept actions := by
  induction front generalizing references elements actions with
  | nil =>
      rcases run with rfl | ⟨_, rfl⟩
      · exact ⟨actions, series, .behind⟩
      · cases series
        exact ⟨[], .nil, .behind⟩
  | cons event front ih =>
      cases series with
      | lost known loses more =>
          obtain ⟨rest, same, run⟩ := (isRun_element rfl).1 run
          cases same
          obtain ⟨kept, series, fills⟩ := ih more run
          refine ⟨kept, ?_, .lost loses rfl fills⟩
          rwa [List.filter_cons_of_neg (by simpa [Event.keepsData] using loses)]
      | value known keeps fits more =>
          obtain ⟨rest, rfl, shorter⟩ := (isRun_element rfl).1 run
          obtain ⟨kept, series, fills⟩ := ih more shorter
          have keeps : Event.keepsData (.element _) := keeps.resolve_left (Nat.succ_ne_zero rest)
          refine ⟨_, ?_, .kept keeps fills⟩
          rw [List.filter_cons_of_pos keeps]
          exact .value known (Or.inl rfl) fits series
      | count known more =>
          obtain ⟨kept, series, fills⟩ := ih more ((isRun_other rfl).1 run)
          refine ⟨_, ?_, .kept rfl fills⟩
          rw [List.filter_cons_of_pos rfl]
          exact .count known series

theorem Fills.series {references : List (Descriptor × Int)} {kept actions : List Action}
    (fills : Fills Action.Skips front kept actions)
    (series : Series resolver references 0 (front.filter Event.keepsData ++ back) kept)
    (run : IsRun elements front back)
    (listed : ∀ code, .element code ∈ front → ∃ info, resolver.element code = .ok info) :
    Series resolver references elements (front ++ back) actions := by
  induction fills generalizing references elements with
  | behind =>
      rcases run with rfl | ⟨_, rfl⟩
      · exact series
      · cases series
        exact .nil
  | kept keeps _ ih =>
      have others code mem := listed code (List.mem_cons_of_mem _ mem)
      rw [List.filter_cons_of_pos keeps] at series
      cases series with
      | value known _ fits more =>
          obtain ⟨rest, rfl, shorter⟩ := (isRun_element rfl).1 run
          exact .value known (Or.inr keeps) fits (ih more shorter others)
      | count known more =>
          exact .count known (ih more ((isRun_other rfl).1 run) others)
  | lost loses skips _ ih =>
      have others code mem := listed code (List.mem_cons_of_mem _ mem)
      obtain ⟨info, known⟩ := listed _ List.mem_cons_self
      obtain ⟨rest, rfl, shorter⟩ := (isRun_element rfl).1 run
      rw [List.filter_cons_of_neg (by simpa [Event.keepsData] using loses)] at series
      cases skips
      exact .lost known loses (ih series shorter others)

theorem Fills.spelled_iff {spells : Action → Bits → Prop} {kept actions : List Action} {x : Bits}
    (fills : Fills Action.Skips front kept actions)
    (silent : ∀ code x, spells ⟨.skip code, ()⟩ x ↔ x = []) :
    Bits.Spelled spells actions x ↔ Bits.Spelled spells kept x := by
  induction fills generalizing x with
  | behind => rfl
  | kept _ _ ih =>
      constructor <;> intro spelled <;> cases spelled with
      | cons first more => exact .cons first (by simpa [ih] using more)
  | lost _ skips _ ih =>
      cases skips
      rw [← ih]
      constructor
      · intro spelled
        cases spelled with
        | cons first more =>
            cases (silent _ _).1 first
            exact more
      · intro spelled
        exact .cons ((silent _ _).2 rfl) spelled

/-! ## Subsets -/

def gapTemplate (y : UInt8) (flat : Template) : Template := ⟨#[.operator (.operator 21 y)]⟩ ++ flat

section

variable {p : Chain} {flat : Template} {y : UInt8}

theorem drop_gapTemplate (y : UInt8) (flat : Template) :
    (gapTemplate y flat).ops.toList.drop 1 = flat.ops.toList := by
  simp [gapTemplate]

theorem next_gapTemplate (y : UInt8) (flat : Template) :
    (Walk.start (gapTemplate y flat)).next =
      some (.operator (.operator 21 y), ⟨gapTemplate y flat, 1, []⟩) := by
  have here : (gapTemplate y flat).ops.toList.drop 0 =
      .operator (.operator 21 y) :: flat.ops.toList := by
    simp [gapTemplate]
  exact Walk.next_at_top here

theorem expand_gap (expanded : Template.expand resolver p = .ok flat) :
    Template.expand resolver (.operator 21 y :: p) = .ok (gapTemplate y flat) :=
  Template.expand_append (Template.expand_operator rfl) expanded

theorem task_gap (walk : Walk) (y : UInt8) :
    Situation.start.task resolver (.operator walk (.operator 21 y)) =
      .ok (.other, { Situation.start with modifiers := .bare [] y.toNat }) := rfl

theorem isBare_gap (y : UInt8) :
    Situation.IsBare [] y.toNat { Situation.start with modifiers := .bare [] y.toNat } := ⟨rfl, rfl⟩

theorem logged_gap_iff {actions : List Action} (expands : Expands resolver p flat.ops.toList)
    (operatorless : ∀ code, .operator code ∉ flat.ops) :
    Situation.Logged resolver (gapTemplate y flat) actions ↔
      ∃ events rest, actions = ⟨.other, ()⟩ :: rest ∧ p.Asks resolver events ∧
        (∀ event ∈ events, event.IsPlain) ∧ Series resolver [] y.toNat events rest := by
  have plays_iff {events : List Event} : Walk.Plays resolver ⟨gapTemplate y flat, 1, []⟩ events ↔
      p.Asks resolver events ∧ ∀ event ∈ events, event.IsPlain :=
    Walk.plays_iff_asks expands (drop_gapTemplate y flat) (by simpa using operatorless)
  constructor
  · rintro ⟨_, σ, σ', plays, log, -⟩
    obtain ⟨events, rfl, further⟩ := (Walk.plays_operator_iff (next_gapTemplate y flat)).1 plays
    obtain ⟨asks, plain⟩ := plays_iff.1 further
    cases log with
    | cons data taskOk log =>
        cases (task_gap _ y).symm.trans taskOk
        exact ⟨events, _, rfl, asks, plain, ((isBare_gap y).series log plain).1⟩
  · rintro ⟨events, rest, rfl, asks, plain, series⟩
    obtain ⟨σ', references, log, isBare⟩ := (isBare_gap y).log series
    exact ⟨_, σ', σ', .operator (next_gapTemplate y flat) (plays_iff.2 ⟨asks, plain⟩),
      .cons () (task_gap _ y) log, isBare.settle_iff.2 rfl⟩

structure Chain.AsksRun (resolver : Resolver) (chain : Chain) (elements : Nat) (front back : List Event) :
    Prop where
  asks : chain.Asks resolver (front ++ back)
  plain : ∀ event ∈ front ++ back, event.IsPlain
  run : IsRun elements front back

theorem Chain.AsksRun.plain_kept (asksRun : p.AsksRun resolver elements front back) :
    ∀ event ∈ front.filter Event.keepsData ++ back, event.IsPlain := by
  intro event mem
  refine asksRun.plain event (List.mem_append.2 ?_)
  exact (List.mem_append.1 mem).imp_left fun mem => (List.mem_filter.1 mem).1

theorem Chain.AsksRun.mem (asksRun : p.AsksRun resolver elements front back)
    (expands : Expands resolver p flat.ops.toList) (mem : .element code ∈ front) :
    .element code ∈ flat.ops :=
  Array.mem_toList_iff.1 (asksRun.asks.mem expands (List.mem_append_left _ mem))

def Decoder.ReadsAround (resolver : Resolver) (chain : Chain) (elements : Nat) (r : Bits.Reader)
    (subset : Subset) (r' : Bits.Reader) : Prop :=
  ∃ front back s, chain.AsksRun resolver elements front back ∧
    (coder resolver).AnswersAll (front.filter Event.keepsData ++ back) (.start r) s ∧
    s.reader = r' ∧ subset.references = #[] ∧
    Fills (fun code v => v = .missing code) front s.subset.vars.toList subset.vars.toList

def Encoder.WritesAround (resolver : Resolver) (chain : Chain) (elements : Nat) (subset : Subset)
    (w w' : Bits.Writer) : Prop :=
  ∃ front back vars s, chain.AsksRun resolver elements front back ∧
    Fills (fun code v => v.code = code ∧ v.value = .missing) front vars subset.vars.toList ∧
    (coder resolver ⟨vars.toArray, subset.references⟩).AnswersAll
      (front.filter Event.keepsData ++ back) (.start w) s ∧
    s.taken = vars.length ∧ s.writer = w'

inductive Encoder.FindsInGap (resolver : Resolver) (chain : Chain) (elements : Nat) (subset : Subset)
    (w : Bits.Writer) (v : Variable) : Prop where
  | intro {front back vars before others s}
      (asks : chain.Asks resolver (front ++ .element v.code :: back))
      (plain : ∀ event ∈ front, event.IsPlain) (inside : front.countP Event.isElement < elements)
      (loses : v.code.keepsData = false) (present : v.value ≠ .missing)
      (parts : subset.vars.toList = before ++ v :: others) (aligned : before.length = front.length)
      (filled : Fills (fun code v => v.code = code ∧ v.value = .missing) front vars before)
      (answers : (coder resolver ⟨vars.toArray, subset.references⟩).AnswersAll
        (front.filter Event.keepsData) (.start w) s)

theorem spelled_other_iff {spells : Action → Bits → Prop} {actions : List Action} {x : Bits}
    (silent : ∀ x, spells ⟨.other, ()⟩ x ↔ x = []) :
    Bits.Spelled spells (⟨.other, ()⟩ :: actions) x ↔ Bits.Spelled spells actions x := by
  constructor
  · intro spelled
    cases spelled with
    | cons first more =>
        cases (silent _).1 first
        exact more
  · intro spelled
    exact .cons ((silent _).2 rfl) spelled

theorem readSubset_gap_iff {r r' : Bits.Reader} {subset : Subset}
    (expands : Expands resolver p flat.ops.toList) (operatorless : ∀ code, .operator code ∉ flat.ops)
    (listed : ∀ code, .element code ∈ flat.ops → ∃ info, resolver.element code = .ok info) :
    Decoder.readSubset resolver (gapTemplate y flat) r = .ok (subset, r') ↔
      Decoder.ReadsAround resolver p y.toNat r subset r' := by
  rw [Decoder.readSubset_ok_iff]
  constructor
  · rintro ⟨actions, x, ⟨logged, spelled, rfl⟩, taken⟩
    obtain ⟨events, rest, rfl, asks, plain, series⟩ := (logged_gap_iff expands operatorless).1 logged
    obtain ⟨front, back, rfl, run⟩ := exists_isRun y.toNat events
    obtain ⟨kept, keptSeries, fills⟩ := series.fills run
    obtain ⟨σ', references, log, -⟩ := Situation.isBare_start.log keptSeries
    obtain ⟨vars, leaves⟩ := series.leaves
    obtain ⟨keptVars, keptLeaves, filled⟩ := (fills_comp skips_leaves_iff).1 ⟨rest, fills, leaves⟩
    have recorded := Subset.recordAll_of_leaves leaves .empty
    rw [spelled_other_iff fun _ => Iff.rfl, fills.spelled_iff fun _ _ => Iff.rfl] at spelled
    have answers := (Decoder.answersAll_iff Subset.codes_start).2
      ⟨kept, x, r', σ', log, spelled, taken, rfl⟩
    refine ⟨front, back, _, ⟨asks, plain, run⟩, answers, rfl, congrArg Subset.references recorded, ?_⟩
    show Fills _ front (Subset.empty.recordAll kept).vars.toList
      (Subset.empty.recordAll rest).vars.toList
    rwa [Subset.vars_of_leaves leaves, Subset.vars_of_leaves keptLeaves]
  · rintro ⟨front, back, s, asksRun, answers, rfl, unreferenced, filled⟩
    obtain ⟨kept, x, r', σ', log, spelled, taken, rfl⟩ :=
      (Decoder.answersAll_iff Subset.codes_start).1 answers
    obtain ⟨keptSeries, -⟩ := Situation.isBare_start.series log asksRun.plain_kept
    obtain ⟨keptVars, keptLeaves⟩ := keptSeries.leaves
    obtain ⟨rest, fills, leaves⟩ := (fills_comp skips_leaves_iff).2
      ⟨keptVars, keptLeaves, Subset.vars_of_leaves keptLeaves ▸ filled⟩
    have series := fills.series keptSeries asksRun.run fun code mem =>
      listed code (asksRun.mem expands mem)
    rw [← fills.spelled_iff fun _ _ => Iff.rfl] at spelled
    refine ⟨⟨.other, ()⟩ :: rest, x, ⟨?_, ?_, ?_⟩, taken⟩
    · exact (logged_gap_iff expands operatorless).2 ⟨_, rest, rfl, asksRun.asks, asksRun.plain, series⟩
    · exact (spelled_other_iff fun _ => Iff.rfl).2 spelled
    · refine Eq.trans ?_ (Subset.recordAll_of_leaves leaves .empty).symm
      simp [Subset.empty, ← unreferenced]

theorem Encoder.series_of_answersAll {events : List Event} {vars : List Variable}
    {references : Array (Descriptor × Int)} {w : Bits.Writer} {s : Encoder}
    (answers : (coder resolver ⟨vars.toArray, references⟩).AnswersAll events (.start w) s)
    (plain : ∀ event ∈ events, event.IsPlain) :
    ∃ actions x used left, Series resolver [] 0 events actions ∧
      Bits.Spelled Action.Writes actions x ∧ List.Forall₂ Action.Codes actions used ∧
      vars = used ++ left ∧ s.taken = used.length ∧ s.writer = w.push x := by
  obtain ⟨actions, x, _, _, _, log, supplied, spelled, -, rfl⟩ := log_of_answersAll matches_start answers
  obtain ⟨series, -⟩ := Situation.isBare_start.series log plain
  obtain ⟨_, leaves⟩ := series.leaves
  obtain ⟨used, left, whole, codes, rfl⟩ := (SuppliesAll.leaves_iff leaves).1 supplied
  exact ⟨actions, x, used, left, series, spelled, codes, whole, Nat.zero_add _, rfl⟩

theorem writeSubset_gap_iff {w w' : Bits.Writer} {subset : Subset}
    (expands : Expands resolver p flat.ops.toList) (operatorless : ∀ code, .operator code ∉ flat.ops)
    (listed : ∀ code, .element code ∈ flat.ops → ∃ info, resolver.element code = .ok info) :
    Encoder.writeSubset resolver (gapTemplate y flat) subset w = .ok w' ↔
      Encoder.WritesAround resolver p y.toNat subset w w' := by
  rw [Encoder.writeSubset_ok_iff]
  constructor
  · rintro ⟨actions, x, ⟨logged, spelled, defined, supplied⟩, rfl⟩
    obtain ⟨events, rest, rfl, asks, plain, series⟩ := (logged_gap_iff expands operatorless).1 logged
    obtain ⟨front, back, rfl, run⟩ := exists_isRun y.toNat events
    obtain ⟨kept, keptSeries, fills⟩ := series.fills run
    obtain ⟨σ', references, log, -⟩ := Situation.isBare_start.log keptSeries
    obtain ⟨_, leaves⟩ := series.leaves
    obtain ⟨_, keptLeaves⟩ := keptSeries.leaves
    cases supplied with
    | cons first more =>
        cases first
        obtain ⟨codes, rfl⟩ := (SuppliesAll.whole_iff leaves).1 more
        obtain ⟨vars, keptCodes, filled⟩ := (fills_comp skips_codes_iff).1 ⟨rest, fills, codes⟩
        rw [spelled_other_iff fun _ => Iff.rfl, fills.spelled_iff fun _ _ => Iff.rfl] at spelled
        have keptSupplied : SuppliesAll resolver ⟨vars.toArray, subset.references⟩ ⟨0, 0, []⟩ kept
            ⟨vars.length, 0, []⟩ :=
          (SuppliesAll.whole_iff keptLeaves).2 ⟨keptCodes, rfl⟩
        obtain ⟨planned, answers, -⟩ :=
          Encoder.answersAll_of_log (w := w) Encoder.matches_start log keptSupplied spelled
        exact ⟨front, back, vars, _, ⟨asks, plain, run⟩, filled, answers, rfl, rfl⟩
  · rintro ⟨front, back, vars, s, asksRun, filled, answers, all, rfl⟩
    obtain ⟨kept, x, used, left, keptSeries, spelled, keptCodes, parts, taken, written⟩ :=
      Encoder.series_of_answersAll answers asksRun.plain_kept
    -- All variables are used, so that the series accounts for each of them.
    have none : left = [] := by
      have long := congrArg List.length parts
      rw [List.length_append] at long
      exact List.length_eq_zero_iff.1 (by omega)
    rw [none, List.append_nil] at parts
    subst parts
    obtain ⟨rest, fills, codes⟩ := (fills_comp skips_codes_iff).2 ⟨vars, keptCodes, filled⟩
    have series := fills.series keptSeries asksRun.run fun code mem =>
      listed code (asksRun.mem expands mem)
    obtain ⟨_, leaves⟩ := series.leaves
    rw [← fills.spelled_iff fun _ _ => Iff.rfl] at spelled
    refine ⟨⟨.other, ()⟩ :: rest, x, ⟨?_, ?_, 0, .cons .other ?_⟩, written⟩
    · exact (logged_gap_iff expands operatorless).2 ⟨_, rest, rfl, asksRun.asks, asksRun.plain, series⟩
    · exact (spelled_other_iff fun _ => Iff.rfl).2 spelled
    · exact (SuppliesAll.whole_iff leaves).2 ⟨codes, rfl⟩

theorem Encoder.element_of_present {w : Bits.Writer} {σ σ' : Situation} {supply : Supply}
    {planned : Array Bool} {subset : Subset} {v : Variable} (same : Matches subset σ supply planned)
    (closed : supply.planned = []) (step : Situation.Step resolver σ (.element code) (.skip code) σ')
    (found : subset.vars[supply.taken]? = some v) (named : v.code = code)
    (present : v.value ≠ .missing) :
    element resolver subset code (of w σ supply planned) = .error (.dataInGap code v.value) := by
  have isPresent : v.value.isMissing = false := by
    cases value : v.value with
    | missing => exact absurd value present
    | integer | decimal | text => rfl
  cases step with
  | @skip σ₁ _ info modifiers begins known gapOpen =>
      have settled := same.settle closed begins.settled
      have begun : (of w σ supply planned).settle = .ok (of w σ₁ supply planned) :=
        (settle_ok_iff same).2 ⟨closed, σ₁, begins.settled, rfl⟩
      have taken : (of w { σ₁ with modifiers } supply planned).take subset code = .ok (v, _) :=
        (take_ok_iff (settled.withModifiers modifiers)).2 ⟨found, named, rfl⟩
      unfold element
      simp only [begins.undefined, begins.noEntry, ↓reduceIte]
      rw [begun]
      simp only [ok_bind, known]
      unfold knownElement
      simp only [Situation.withoutLocal] at gapOpen
      simp only [gapOpen, ↓reduceIte]
      rw [taken]
      simp only [ok_bind, isPresent, Bool.false_eq_true, ↓reduceIte]

theorem Coder.run_of_refused {State : Type} {coder : Coder State} {walk behind rest : Walk}
    {s s' : State} {e : Error} (reached : coder.Reaches resolver (walk, s) (behind, s'))
    (next : behind.next = some (.element code, rest)) (refused : coder.element code s' = .error e) :
    coder.run resolver walk s = .error e := by
  refine (run_of_reaches reached).trans (run_of_failed_step ?_)
  simp only [step, next, refused, Except.map]

theorem reaches_in_gap {w : Bits.Writer} {subset : Subset} {actions : List Action} {x : Bits}
    {before others : List Variable} (expands : Expands resolver p flat.ops.toList)
    (asks : p.Asks resolver (front ++ back)) (plain : ∀ event ∈ front, event.IsPlain)
    (series : Series resolver [] y.toNat front actions) (spelled : Bits.Spelled Action.Writes actions x)
    (codes : List.Forall₂ Action.Codes actions before)
    (parts : subset.vars.toList = before ++ others) :
    ∃ behind σ planned references, behind.Faces back ∧
      (Encoder.coder resolver subset).Reaches resolver (.start (gapTemplate y flat), .start w)
        (behind, .of (w.push x) σ ⟨before.length, 0, []⟩ planned) ∧
      Encoder.Matches subset σ ⟨before.length, 0, []⟩ planned ∧
      σ.IsBare references (y.toNat - front.countP Event.isElement) := by
  obtain ⟨behind, plays, faces⟩ := Walk.playsTo_of_asks expands (drop_gapTemplate y flat) asks plain
  obtain ⟨σ, references, log, isBare⟩ := (isBare_gap y).log series
  obtain ⟨_, leaves⟩ := series.leaves
  have supplied : SuppliesAll resolver subset ⟨0, 0, []⟩ (⟨.other, ()⟩ :: actions)
      ⟨before.length, 0, []⟩ :=
    .cons .other ((SuppliesAll.leaves_iff leaves).2
      ⟨before, others, parts, codes, by rw [Nat.zero_add]⟩)
  obtain ⟨planned, answers, same⟩ := Encoder.answersAll_of_log (w := w) Encoder.matches_start
    (.cons () (task_gap ⟨gapTemplate y flat, 1, []⟩ y) log) supplied
    ((spelled_other_iff fun _ => Iff.rfl).2 spelled)
  exact ⟨behind, σ, planned, references, faces,
    (Walk.PlaysTo.operator (next_gapTemplate y flat) plays).reaches answers, same, isBare⟩

theorem writeSubset_dataInGap {w : Bits.Writer} {subset : Subset} {v : Variable}
    (expands : Expands resolver p flat.ops.toList)
    (listed : ∀ code, .element code ∈ flat.ops → ∃ info, resolver.element code = .ok info)
    (finds : Encoder.FindsInGap resolver p y.toNat subset w v) :
    Encoder.writeSubset resolver (gapTemplate y flat) subset w = .error (.dataInGap v.code v.value) := by
  obtain @⟨front, back, vars, before, others, s, asks, plain, inside, loses, present, parts, aligned,
    filled, answers⟩ := finds
  have knows {event : Event} (mem : event ∈ front ++ [.element v.code]) : event.opcode ∈ flat.ops := by
    refine Array.mem_toList_iff.1 (asks.mem expands ?_)
    rw [List.append_cons]
    exact List.mem_append_left back mem
  obtain ⟨kept, x, used, left, keptSeries, spelled, keptCodes, whole, -, -⟩ :=
    Encoder.series_of_answersAll answers fun event mem => plain event (List.mem_filter.1 mem).1
  -- Aligned with the run, the variables that remain are just those of its events with data.
  have none : left = [] := by
    have long := filled.length
    have each := keptSeries.length.symm.trans keptCodes.length_eq
    have all := congrArg List.length whole
    rw [List.length_append] at all
    exact List.length_eq_zero_iff.1 (by omega)
  rw [none, List.append_nil] at whole
  subst whole
  obtain ⟨actions, fills, codes⟩ := (fills_comp skips_codes_iff).2 ⟨vars, keptCodes, filled⟩
  have series := fills.series ((List.append_nil (front.filter Event.keepsData)).symm ▸ keptSeries)
    (Or.inr ⟨inside, rfl⟩) fun code mem => listed code (knows (List.mem_append_left _ mem))
  rw [List.append_nil] at series
  obtain ⟨behind, σ, planned, references, ⟨rest, next⟩, reached, same, isBare⟩ :=
    reaches_in_gap expands asks plain series ((fills.spelled_iff fun _ _ => Iff.rfl).2 spelled) codes parts
  obtain ⟨gap, more⟩ := Nat.exists_eq_succ_of_ne_zero (Nat.sub_ne_zero_of_lt inside)
  rw [more] at isBare
  obtain ⟨info, known⟩ := listed v.code (knows (List.mem_append_right _ List.mem_cons_self))
  obtain ⟨_, step, -⟩ := isBare.lost known loses
  have found : subset.vars[before.length]? = some v := by
    rw [← Array.getElem?_toList, parts]
    simp
  have refused := Encoder.element_of_present (w := w.push x) same rfl step found rfl present
  exact bind_eq_error_iff.2 (.inl (Coder.run_of_refused reached next refused))

end

/-- A run without data is coded as its elements with data alone would be: nothing else of it is in the
bits, what is left out reads as missing, and a value that would be lost is refused. -/
theorem gap_left_out {p : Chain} {flat : Template} (y : UInt8)
    (expanded : Template.expand resolver p = .ok flat) (operatorless : ∀ code, .operator code ∉ flat.ops)
    (listed : ∀ code, .element code ∈ flat.ops → ∃ info, resolver.element code = .ok info) :
    ∃ template, Template.expand resolver (.operator 21 y :: p) = .ok template ∧
      (∀ r subset r', Decoder.readSubset resolver template r = .ok (subset, r') ↔
        Decoder.ReadsAround resolver p y.toNat r subset r') ∧
      (∀ subset w w', Encoder.writeSubset resolver template subset w = .ok w' ↔
        Encoder.WritesAround resolver p y.toNat subset w w') ∧
      ∀ subset w v, Encoder.FindsInGap resolver p y.toNat subset w v →
        Encoder.writeSubset resolver template subset w = .error (.dataInGap v.code v.value) ∧
          (Error.dataInGap v.code v.value).kind = .consistency := by
  have expands := Expands.of_expand expanded
  refine ⟨gapTemplate y flat, expand_gap expanded, fun r subset r' => ?_, fun subset w w' => ?_,
    fun subset w v finds => ⟨?_, rfl⟩⟩
  · exact readSubset_gap_iff expands operatorless listed
  · exact writeSubset_gap_iff expands operatorless listed
  · exact writeSubset_dataInGap expands listed finds

def namedLevels : Chain := [.replication 2 0, .element 31 1, .element 12 101, .element 1 15]

def namedTemplate : Template := ⟨#[.replication (.replication 2 0) 2, .element (.element 31 1),
  .element (.element 12 101), .element (.element 1 15)]⟩

def namedReport (first : Value) : Subset := ⟨#[.ofValue (.element 31 1) (.integer 2),
  .ofValue (.element 12 101) first, .ofValue (.element 1 15) (.text "Abc"),
  .ofValue (.element 12 101) (.decimal 27315 (-2)), .ofValue (.element 1 15) (.text "Def")], #[]⟩

theorem findsInGap_namedReport : Encoder.FindsInGap .station namedLevels 2
    (namedReport (.decimal 27315 (-2))) .empty (.ofValue (.element 12 101) (.decimal 27315 (-2))) := by
  have flat : Expands .station namedLevels namedTemplate.ops.toList :=
    .of_expand (by decide +kernel)
  have operatorless : ∀ code, .operator code ∉ namedTemplate.ops.toList := by
    simp [namedTemplate]
  have plays : (Walk.start namedTemplate).Plays .station [.count (.replication 2 0) (.element 31 1) 2,
      .element (.element 12 101), .element (.element 1 15), .element (.element 12 101),
      .element (.element 1 15)] :=
    .delayed rfl rfl rfl rfl rfl (.element rfl (.element rfl (.element rfl (.element rfl (.done rfl)))))
  obtain ⟨asks, plain⟩ := (Walk.plays_iff_asks flat rfl operatorless).1 plays
  have counted : ∃ s, (Encoder.coder .station
      ⟨[.ofValue (.element 31 1) (.integer 2)].toArray, #[]⟩).AnswersAll
        [.count (.replication 2 0) (.element 31 1) 2] (.start .empty) s :=
    ⟨_, .cons rfl .nil⟩
  obtain ⟨s, answers⟩ := counted
  have before := List.forall_mem_singleton.2 (plain _ List.mem_cons_self)
  exact @Encoder.FindsInGap.intro _ _ _ _ _ _ [.count (.replication 2 0) (.element 31 1) 2] _ _
    [.ofValue (.element 31 1) (.integer 2)] _ s asks before (by decide) rfl nofun rfl rfl
    (.kept rfl .behind) answers

theorem gap_left_out_namedLevels :
    (∃ template, Template.expand .station (.operator 21 2 :: namedLevels) = .ok template ∧
      (∀ r subset r', Decoder.readSubset .station template r = .ok (subset, r') ↔
        Decoder.ReadsAround .station namedLevels 2 r subset r') ∧
      (∀ subset w w', Encoder.writeSubset .station template subset w = .ok w' ↔
        Encoder.WritesAround .station namedLevels 2 subset w w') ∧
      ∀ subset w v, Encoder.FindsInGap .station namedLevels 2 subset w v →
        Encoder.writeSubset .station template subset w = .error (.dataInGap v.code v.value) ∧
          (Error.dataInGap v.code v.value).kind = .consistency) ∧
      Encoder.FindsInGap .station namedLevels 2 (namedReport (.decimal 27315 (-2))) .empty
        (.ofValue (.element 12 101) (.decimal 27315 (-2))) := by
  have expanded : Template.expand .station namedLevels = .ok namedTemplate := by decide +kernel
  refine ⟨gap_left_out 2 expanded (by simp [namedTemplate]) ?_, findsInGap_namedReport⟩
  intro code mem
  have one : code = .element 31 1 ∨ code = .element 12 101 ∨ code = .element 1 15 := by
    simpa [namedTemplate] using mem
  rcases one with rfl | rfl | rfl <;> exact ⟨_, rfl⟩

example : (Decoder.readSubset .station (gapTemplate 2 namedTemplate)
    (.ofOctets [2, 0x41, 0x62, 0x63, 0x6a, 0xb3, 0x44, 0x65, 0x66])).map (·.1) =
      .ok (namedReport .missing) := by
  decide +kernel

end Bufr
