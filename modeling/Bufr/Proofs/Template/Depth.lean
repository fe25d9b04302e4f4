import Bufr.Proofs.Template.Composition
import Mathlib.Data.List.Chain

/-!
How deep an expansion goes. The elements of a sequence and the window of a replication are one level
below what opens them. A chain is expanded when no way down from it is longer than the levels there
are, and tables that lead back to themselves have ways down of any length.
-/

namespace Bufr

namespace Expansion

inductive Head where
  | ended
  | single (rest : Chain)
  | opens (lower behind : Chain)
  | faulty (e : Error)

def window (replication : Descriptor) (rest : Chain) : Head :=
  if replication.x.toNat ≤ rest.length then
    .opens (rest.take replication.x.toNat) (rest.drop replication.x.toNat)
  else .faulty (.shortBody replication rest.length)

def head (resolver : Resolver) : Chain → Head
  | [] => .ended
  | d :: rest =>
    match d.kind with
    | .element | .operator => .single rest
    | .sequence =>
      match resolver.sequence d with
      | .ok elements => .opens elements rest
      | .error e => .faulty e
    | .replication =>
      match resolver.repetition d, rest with
      | .error e, _ => .faulty e
      | .ok ⟨_, false⟩, rest => window d rest
      | .ok ⟨_, true⟩, [] => .faulty (.countAbsent d)
      | .ok ⟨_, true⟩, count :: rest =>
        if count.isQualifier then window d rest else .faulty (.countNotQualifier d count)

inductive Ending where
  | expanded
  | failed (e : Error)
  | tooDeep

/-- The course of an expansion with so many levels left below the chain. -/
inductive Ends (resolver : Resolver) : (left : Nat) → Chain → Ending → Prop where
  | done {left chain} (begins : head resolver chain = .ended) : Ends resolver left chain .expanded
  | single {left chain rest ending} (begins : head resolver chain = .single rest)
      (more : Ends resolver left rest ending) : Ends resolver left chain ending
  | faulty {left chain e} (begins : head resolver chain = .faulty e) :
      Ends resolver left chain (.failed e)
  | tooDeep {chain lower behind} (begins : head resolver chain = .opens lower behind) :
      Ends resolver 0 chain .tooDeep
  | stopped {left chain lower behind ending} (begins : head resolver chain = .opens lower behind)
      (below : Ends resolver left lower ending) (stops : ending ≠ .expanded) :
      Ends resolver (left + 1) chain ending
  | passed {left chain lower behind ending} (begins : head resolver chain = .opens lower behind)
      (below : Ends resolver left lower .expanded) (more : Ends resolver (left + 1) behind ending) :
      Ends resolver (left + 1) chain ending

inductive Ending.Gives {α : Type} : Ending → Except Error α → Prop where
  | expanded (a : α) : Gives .expanded (.ok a)
  | failed (e : Error) : Gives (.failed e) (.error e)
  | tooDeep : Gives .tooDeep (.error (.tooDeep Template.maxDepth))

inductive Below (resolver : Resolver) : (chain lower : Chain) → Prop where
  | here {chain lower behind} (begins : head resolver chain = .opens lower behind) :
      Below resolver chain lower
  | single {chain rest lower} (begins : head resolver chain = .single rest)
      (later : Below resolver rest lower) : Below resolver chain lower
  | behind {chain other behind lower} (begins : head resolver chain = .opens other behind)
      (later : Below resolver behind lower) : Below resolver chain lower

def LeadsDown (resolver : Resolver) (chain : Chain) (path : List Chain) : Prop :=
  (chain :: path).IsChain (Below resolver)

def Names (resolver : Resolver) (outer inner : Descriptor) : Prop :=
  inner.kind = .sequence ∧ ∃ elements, resolver.sequence outer = .ok elements ∧ inner ∈ elements

variable {resolver : Resolver} {left : Nat} {chain rest lower behind : Chain} {d : Descriptor}
  {e : Error} {ending ending' : Ending}

theorem head_of_window {repetition : Repetition} {count : Array Opcode} (kind : d.kind = .replication)
    (counted : resolver.repetition d = .ok repetition)
    (counts : Template.delayedCount d repetition.delayed rest = .ok (count, chain)) :
    head resolver (d :: rest) = window d chain := by
  obtain ⟨passes, delayed⟩ := repetition
  unfold Template.delayedCount at counts
  split at counts
  next isDelayed =>
    cases isDelayed
    split at counts
    · cases counts
    split at counts
    next qualifier =>
      cases counts
      simp only [head, kind, counted, qualifier, ↓reduceIte]
    · cases counts
  next isFixed =>
    cases Bool.eq_false_iff.2 isFixed
    cases counts
    simp only [head, kind, counted]

theorem head_uncounted {repetition : Repetition} (kind : d.kind = .replication)
    (counted : resolver.repetition d = .ok repetition)
    (failed : Template.delayedCount d repetition.delayed rest = .error e) :
    head resolver (d :: rest) = .faulty e := by
  obtain ⟨passes, delayed⟩ := repetition
  unfold Template.delayedCount at failed
  split at failed
  next isDelayed =>
    cases isDelayed
    split at failed
    · cases failed
      simp only [head, kind, counted]
    split at failed
    · cases failed
    next other =>
      cases failed
      simp only [head, kind, counted, other, Bool.false_eq_true, ↓reduceIte]
  · cases failed

theorem window_short (short : Template.window? d.x.toNat chain = none) :
    window d chain = .faulty (.shortBody d chain.length) := by
  simp only [Template.window?, List.splitAt_eq, List.length_take, ite_eq_left_iff, reduceCtorEq,
    imp_false, not_not] at short
  rw [window, if_neg (by omega)]

theorem window_full (full : Template.window? d.x.toNat chain = some (lower, behind)) :
    window d chain = .opens lower behind := by
  obtain ⟨long, rfl⟩ := Template.window?_eq_some full
  rw [window, if_pos (by rw [List.length_append]; omega), List.take_left' long, List.drop_left' long]

/-! ## The course of an expansion -/

theorem Ends.unique (first : Ends resolver left chain ending) (second : Ends resolver left chain ending') :
    ending' = ending := by
  -- The head of the chain decides between the rules, up to how the level below ends.
  induction first generalizing ending' with
  | done begins =>
      cases second with
      | done => rfl
      | single other | faulty other | tooDeep other | stopped other | passed other =>
          cases begins.symm.trans other
  | single begins _ ih =>
      cases second with
      | single begins' more =>
          cases begins.symm.trans begins'
          exact ih more
      | done other | faulty other | tooDeep other | stopped other | passed other =>
          cases begins.symm.trans other
  | faulty begins =>
      cases second with
      | faulty begins' =>
          cases begins.symm.trans begins'
          rfl
      | done other | single other | tooDeep other | stopped other | passed other =>
          cases begins.symm.trans other
  | tooDeep begins =>
      cases second with
      | tooDeep => rfl
      | done other | single other | faulty other => cases begins.symm.trans other
  | stopped begins _ stops ihBelow =>
      cases second with
      | stopped begins' below =>
          cases begins.symm.trans begins'
          exact ihBelow below
      | passed begins' below =>
          cases begins.symm.trans begins'
          exact absurd (ihBelow below).symm stops
      | done other | single other | faulty other => cases begins.symm.trans other
  | passed begins _ _ ihBelow ih =>
      cases second with
      | stopped begins' below stops =>
          cases begins.symm.trans begins'
          exact absurd (ihBelow below) stops
      | passed begins' _ more =>
          cases begins.symm.trans begins'
          exact ih more
      | done other | single other | faulty other => cases begins.symm.trans other

theorem exists_ends_opens {result : Except Error (Array Opcode)}
    (begins : head resolver chain = .opens lower behind)
    (deeper : ∀ left', left = left' + 1 → ∃ ending, Ends resolver left' lower ending ∧
      ending.Gives (Template.expandLevels resolver left lower))
    (stops : ∀ e, Template.expandLevels resolver left lower = .error e → result = .error e)
    (passes : ∀ steps, Template.expandLevels resolver left lower = .ok steps →
      ∃ ending, Ends resolver left behind ending ∧ ending.Gives result) :
    ∃ ending, Ends resolver left chain ending ∧ ending.Gives result := by
  cases left with
  | zero =>
      rw [stops _ rfl]
      exact ⟨.tooDeep, .tooDeep begins, .tooDeep⟩
  | succ left =>
      obtain ⟨ending, ended, gives⟩ := deeper left rfl
      generalize below : Template.expandLevels resolver (left + 1) lower = entered at *
      cases gives with
      | expanded steps =>
          obtain ⟨ending, more, gives⟩ := passes steps rfl
          exact ⟨ending, .passed begins ended more, gives⟩
      | failed e =>
          rw [stops e rfl]
          exact ⟨.failed e, .stopped begins ended nofun, .failed e⟩
      | tooDeep =>
          rw [stops _ rfl]
          exact ⟨.tooDeep, .stopped begins ended nofun, .tooDeep⟩

theorem exists_ends_level
    (deeper : ∀ left' lower, left = left' + 1 → ∃ ending, Ends resolver left' lower ending ∧
      ending.Gives (Template.expandLevels resolver left lower))
    (done : Array Opcode) (chain : Chain) :
    ∃ ending, Ends resolver left chain ending ∧
      ending.Gives (Template.expandLevel resolver (Template.expandLevels resolver left) done chain) := by
  fun_induction Template.expandLevel resolver (Template.expandLevels resolver left) done chain with
  | case1 done => exact ⟨.expanded, .done rfl, .expanded done⟩
  | case2 done d rest kind ih | case3 done d rest kind ih =>
      obtain ⟨ending, more, gives⟩ := ih
      exact ⟨ending, .single (by simp only [head, kind]) more, gives⟩
  | case4 done d rest kind e failed | case7 done d rest kind e failed =>
      exact ⟨.failed e, .faulty (by simp only [head, kind, failed]), .failed e⟩
  | case5 done d rest kind elements found e failed =>
      have begins : head resolver (d :: rest) = .opens elements rest := by
        simp only [head, kind, found]
      exact exists_ends_opens begins (deeper · elements) (fun _ => failed.symm.trans)
        fun _ same => by cases failed.symm.trans same
  | case6 done d rest kind elements found inner deeperOk ih =>
      have begins : head resolver (d :: rest) = .opens elements rest := by
        simp only [head, kind, found]
      exact exists_ends_opens begins (deeper · elements)
        (fun _ same => by cases deeperOk.symm.trans same) fun _ _ => ih
  | case8 done d rest kind repetition counted e failed =>
      exact ⟨.failed e, .faulty (head_uncounted kind counted failed), .failed e⟩
  | case9 done d rest kind repetition counted count chain counts short =>
      have begins := (head_of_window kind counted counts).trans (window_short short)
      exact ⟨_, .faulty begins, .failed _⟩
  | case10 done d rest kind repetition counted count chain counts body others window e failed =>
      have begins := (head_of_window kind counted counts).trans (window_full window)
      exact exists_ends_opens begins (deeper · body) (fun _ => failed.symm.trans)
        fun _ same => by cases failed.symm.trans same
  | case11 done d rest kind repetition counted count chain counts body others window inner deeperOk ih =>
      have begins := (head_of_window kind counted counts).trans (window_full window)
      exact exists_ends_opens begins (deeper · body)
        (fun _ same => by cases deeperOk.symm.trans same) fun _ _ => ih

theorem exists_ends (resolver : Resolver) (left : Nat) (chain : Chain) :
    ∃ ending, Ends resolver left chain ending ∧
      ending.Gives (Template.expandLevels resolver (left + 1) chain) := by
  induction left generalizing chain with
  | zero => exact exists_ends_level (fun _ _ next => by cases next) #[] chain
  | succ left ih =>
      refine exists_ends_level (fun left' lower next => ?_) #[] chain
      cases next
      exact ih lower

/-! ## Ways down -/

theorem leadsDown_cons {path : List Chain} :
    LeadsDown resolver chain (lower :: path) ↔
      Below resolver chain lower ∧ LeadsDown resolver lower path :=
  List.isChain_cons_cons

theorem exists_leadsDown (ended : Ends resolver left chain .tooDeep) :
    ∃ path, LeadsDown resolver chain path ∧ path.length = left + 1 := by
  -- A way down from what is behind the head is one from the head as well.
  have sooner {left : Nat} {chain rest : Chain}
      (later : ∀ lower, Below resolver rest lower → Below resolver chain lower)
      (found : ∃ path, LeadsDown resolver rest path ∧ path.length = left + 1) :
      ∃ path, LeadsDown resolver chain path ∧ path.length = left + 1 := by
    obtain ⟨_ | ⟨lower, path⟩, down, long⟩ := found
    · cases long
    · obtain ⟨first, down⟩ := leadsDown_cons.1 down
      exact ⟨lower :: path, leadsDown_cons.2 ⟨later lower first, down⟩, long⟩
  generalize at_end : Ending.tooDeep = ending at ended
  induction ended with
  | done | faulty => cases at_end
  | single begins _ ih => exact sooner (fun _ => .single begins) (ih at_end)
  | @tooDeep chain lower behind begins =>
      exact ⟨[lower], leadsDown_cons.2 ⟨.here begins, .singleton lower⟩, rfl⟩
  | @stopped left chain lower behind ending begins _ _ ih =>
      obtain ⟨path, down, long⟩ := ih at_end
      exact ⟨lower :: path, leadsDown_cons.2 ⟨.here begins, down⟩, congrArg Nat.succ long⟩
  | passed begins _ _ _ ih => exact sooner (fun _ => .behind begins) (ih at_end)

theorem length_le_of_leadsDown (ended : Ends resolver left chain .expanded) {path : List Chain}
    (down : LeadsDown resolver chain path) : path.length ≤ left := by
  generalize at_end : Ending.expanded = ending at ended
  induction ended generalizing path with
  | faulty | tooDeep => cases at_end
  | stopped _ _ stops => exact absurd at_end.symm stops
  | done begins =>
      cases path with
      | nil => exact Nat.zero_le _
      | cons lower path =>
          cases (leadsDown_cons.1 down).1 with
          | here other | single other | behind other => cases begins.symm.trans other
  | single begins _ ih =>
      cases path with
      | nil => exact Nat.zero_le _
      | cons lower path =>
          obtain ⟨first, down⟩ := leadsDown_cons.1 down
          cases first with
          | single begins' later =>
              cases begins.symm.trans begins'
              exact ih (leadsDown_cons.2 ⟨later, down⟩) at_end
          | here other | behind other => cases begins.symm.trans other
  | passed begins _ _ ihBelow ih =>
      cases path with
      | nil => exact Nat.zero_le _
      | cons lower path =>
          obtain ⟨first, down⟩ := leadsDown_cons.1 down
          cases first with
          | here begins' =>
              cases begins.symm.trans begins'
              exact Nat.succ_le_succ (ihBelow down rfl)
          | single other => cases begins.symm.trans other
          | behind begins' later =>
              cases begins.symm.trans begins'
              exact ih (leadsDown_cons.2 ⟨later, down⟩) at_end

/-! ## Sequences that contain themselves -/

def Head.Holds (resolver : Resolver) (d : Descriptor) : Head → Prop
  | ended => False
  | single rest => d ∈ rest
  | opens lower behind => resolver.sequence d = .ok lower ∨ d ∈ lower ∨ d ∈ behind
  | faulty _ => True

theorem holds_window (mem : d ∈ rest) (replication : Descriptor) :
    (window replication rest).Holds resolver d := by
  unfold window
  split
  · exact .inr (List.mem_append.1 ((List.take_append_drop _ _).symm ▸ mem))
  · trivial

theorem holds_head (resolver : Resolver) (mem : d ∈ chain) (kind : d.kind = .sequence) :
    (head resolver chain).Holds resolver d := by
  cases chain with
  | nil => cases mem
  | cons first rest =>
      have later (other : first.kind ≠ .sequence) : d ∈ rest := by
        rcases List.mem_cons.1 mem with rfl | mem
        · exact absurd kind other
        · exact mem
      simp only [head]
      split
      next element => exact later (by simp [element])
      next operator => exact later (by simp [operator])
      next sequence =>
        split
        next named =>
          rcases List.mem_cons.1 mem with rfl | mem
          · exact .inl named
          · exact .inr (.inr mem)
        · trivial
      next replication =>
        have mem := later (by simp [replication])
        split
        · trivial
        · exact holds_window mem first
        · trivial
        next count rest =>
          split
          next qualifier =>
            rcases List.mem_cons.1 mem with rfl | mem
            · cases kind.symm.trans (Descriptor.kind_of_isQualifier qualifier)
            · exact holds_window mem first
          · trivial

theorem exists_ends_elements (ended : Ends resolver left chain .expanded) (mem : d ∈ chain)
    (kind : d.kind = .sequence) :
    ∃ elements left', resolver.sequence d = .ok elements ∧ left' < left ∧
      Ends resolver left' elements .expanded := by
  -- The ending is an index of the induction and has to be a variable.
  obtain ⟨ending, at_end⟩ : ∃ ending, ending = Ending.expanded := ⟨_, rfl⟩
  rw [← at_end] at ended
  induction ended with
  | faulty | tooDeep => cases at_end
  | stopped _ _ stops => exact absurd at_end stops
  | done begins =>
      have none := holds_head resolver mem kind
      rw [begins] at none
      cases none
  | single begins _ ih =>
      have later := holds_head resolver mem kind
      rw [begins] at later
      exact ih later at_end
  | @passed left chain lower behind ending begins below _ ihBelow ih =>
      have place := holds_head resolver mem kind
      rw [begins] at place
      rcases place with named | mem | mem
      · exact ⟨lower, left, named, Nat.lt_succ_self left, below⟩
      · obtain ⟨elements, left', named, lt, ended⟩ := ihBelow mem rfl
        exact ⟨elements, left', named, Nat.lt_succ_of_lt lt, ended⟩
      · exact ih mem at_end

def IsExpanded (resolver : Resolver) (left : Nat) (d : Descriptor) : Prop :=
  ∃ elements, resolver.sequence d = .ok elements ∧ Ends resolver left elements .expanded

theorem IsExpanded.names {outer inner : Descriptor} (expanded : IsExpanded resolver left outer)
    (names : Names resolver outer inner) : ∃ left' < left, IsExpanded resolver left' inner := by
  obtain ⟨elements, named, ended⟩ := expanded
  obtain ⟨kind, _, named', mem⟩ := names
  cases named.symm.trans named'
  obtain ⟨inner, left', named, lt, ended⟩ := exists_ends_elements ended mem kind
  exact ⟨left', lt, inner, named, ended⟩

theorem IsExpanded.reaches {outer inner : Descriptor} (expanded : IsExpanded resolver left outer)
    (reached : Relation.TransGen (Names resolver) outer inner) :
    ∃ left' < left, IsExpanded resolver left' inner := by
  induction reached with
  | single names => exact expanded.names names
  | tail _ names ih =>
      obtain ⟨left', lt, further⟩ := ih
      obtain ⟨left'', lt', further⟩ := further.names names
      exact ⟨left'', lt'.trans lt, further⟩

/-- Levels would have to fall for ever. -/
theorem not_isExpanded_of_cycle (cycle : Relation.TransGen (Names resolver) d d) (left : Nat) :
    ¬IsExpanded resolver left d := by
  induction left using Nat.strong_induction_on with
  | _ left ih =>
      intro expanded
      obtain ⟨left', lt, again⟩ := expanded.reaches cycle
      exact ih left' lt again

theorem not_expanded_of_cycle {first : Descriptor} (mem : first ∈ chain) (kind : first.kind = .sequence)
    (reached : Relation.ReflTransGen (Names resolver) first d)
    (cycle : Relation.TransGen (Names resolver) d d) : ¬Ends resolver left chain .expanded := by
  intro ended
  obtain ⟨elements, left', named, _, ended⟩ := exists_ends_elements ended mem kind
  have expanded : IsExpanded resolver left' first := ⟨elements, named, ended⟩
  rcases Relation.reflTransGen_iff_eq_or_transGen.1 reached with rfl | reached
  · exact not_isExpanded_of_cycle cycle left' expanded
  · obtain ⟨left'', _, expanded⟩ := expanded.reaches reached
    exact not_isExpanded_of_cycle cycle left'' expanded

end Expansion

namespace Template

open Expansion

variable {resolver : Resolver} {chain : Chain}

theorem exists_ends_expand (resolver : Resolver) (chain : Chain) :
    ∃ ending, Expansion.Ends resolver 32 chain ending ∧ ending.Gives (expand resolver chain) := by
  obtain ⟨ending, ended, gives⟩ := exists_ends resolver 32 chain
  refine ⟨ending, ended, ?_⟩
  unfold expand maxDepth
  generalize expandLevels resolver (32 + 1) chain = result at gives
  cases gives with
  | expanded steps => exact .expanded _
  | failed e => exact .failed e
  | tooDeep => exact .tooDeep

/-- Every expansion comes to an end, and without a fault on its course it is the 32 levels that decide.
No chain is expanded that leads to a sequence among its own elements. -/
theorem expand_within_levels (resolver : Resolver) (chain : Chain) :
    (∃ ending, Expansion.Ends resolver 32 chain ending ∧ ending.Gives (expand resolver chain) ∧
      ∀ other, Expansion.Ends resolver 32 chain other → other = ending) ∧
    ((∀ e, ¬Expansion.Ends resolver 32 chain (.failed e)) →
      ((∃ template, expand resolver chain = .ok template) ↔
        ∀ path, LeadsDown resolver chain path → path.length ≤ 32) ∧
      ((∀ template, expand resolver chain ≠ .ok template) →
        expand resolver chain = .error (.tooDeep 32) ∧ (Error.tooDeep 32).kind = .consistency)) ∧
    ∀ first d, first ∈ chain → first.kind = .sequence →
      Relation.ReflTransGen (Names resolver) first d → Relation.TransGen (Names resolver) d d →
      ∀ template, expand resolver chain ≠ .ok template := by
  obtain ⟨ending, ended, gives⟩ := exists_ends_expand resolver chain
  refine ⟨⟨ending, ended, gives, fun other => ended.unique⟩, ?_, ?_⟩
  · intro faultless
    generalize expand resolver chain = result at gives
    cases gives with
    | expanded template =>
      refine ⟨⟨fun _ path => length_le_of_leadsDown ended, fun _ => ⟨template, rfl⟩⟩, ?_⟩
      exact fun none => absurd rfl (none template)
    | failed e => exact absurd ended (faultless e)
    | tooDeep =>
      obtain ⟨path, down, long⟩ := exists_leadsDown ended
      refine ⟨⟨nofun, fun short => ?_⟩, fun _ => ⟨rfl, rfl⟩⟩
      have := short path down
      omega
  · intro first d mem kind reached cycle template expanded
    rw [expanded] at gives
    cases gives
    exact not_expanded_of_cycle mem kind reached cycle ended

end Template

/-! ## A sequence within itself, and windows within windows -/

def Resolver.looping : Resolver where
  element d := .error (.unknownElement d)
  sequence d :=
    if d = .sequence 63 200 then .ok [.element 1 1, .sequence 63 200] else .error (.unknownSequence d)
  repetition := repetitionOf

theorem Expansion.head_looping {chain : Chain} (known : chain ⊆ [.element 1 1, .sequence 63 200]) :
    head .looping chain = .ended ∨ head .looping chain = .single chain.tail ∨
      head .looping chain = .opens [.element 1 1, .sequence 63 200] chain.tail := by
  cases chain with
  | nil => exact .inl rfl
  | cons d rest =>
      have d_eq := known List.mem_cons_self
      rw [List.mem_pair] at d_eq
      rcases d_eq with rfl | rfl
      · exact .inr (.inl rfl)
      · exact .inr (.inr rfl)

theorem Expansion.not_failed_looping {left : Nat} {chain : Chain} {e : Error}
    (known : chain ⊆ [.element 1 1, .sequence 63 200]) : ¬Ends .looping left chain (.failed e) := by
  intro ended
  obtain ⟨ending, at_end⟩ : ∃ ending, ending = Ending.failed e := ⟨_, rfl⟩
  rw [← at_end] at ended
  induction ended with
  | done | tooDeep => cases at_end
  | faulty begins =>
      rcases head_looping known with same | same | same <;> cases begins.symm.trans same
  | single begins _ ih =>
      rcases head_looping known with same | same | same <;> cases begins.symm.trans same
      exact ih (List.Subset.trans (List.tail_sublist _).subset known) at_end
  | stopped begins _ _ ih =>
      rcases head_looping known with same | same | same <;> cases begins.symm.trans same
      exact ih (List.Subset.refl _) at_end
  | passed begins _ _ _ ih =>
      rcases head_looping known with same | same | same <;> cases begins.symm.trans same
      exact ih (List.Subset.trans (List.tail_sublist _).subset known) at_end

theorem Template.expand_within_levels_looping :
    (∀ e, ¬Expansion.Ends .looping 32 [.sequence 63 200] (.failed e)) ∧
      Relation.TransGen (Expansion.Names .looping) (.sequence 63 200) (.sequence 63 200) ∧
      (¬∀ path, Expansion.LeadsDown .looping [.sequence 63 200] path → path.length ≤ 32) ∧
      expand .looping [.sequence 63 200] = .error (.tooDeep 32) := by
  obtain ⟨_, decided, cyclic⟩ := expand_within_levels .looping [.sequence 63 200]
  have faultless : ∀ e, ¬Expansion.Ends .looping 32 [.sequence 63 200] (.failed e) :=
    fun e => Expansion.not_failed_looping (by decide)
  have cycle : Relation.TransGen (Expansion.Names .looping) (.sequence 63 200) (.sequence 63 200) :=
    .single ⟨rfl, _, rfl, by decide⟩
  have never := cyclic (.sequence 63 200) _ List.mem_cons_self rfl .refl cycle
  obtain ⟨short_iff, otherwise⟩ := decided faultless
  refine ⟨faultless, cycle, fun short => ?_, (otherwise never).1⟩
  obtain ⟨template, expanded⟩ := short_iff.2 short
  exact never template expanded

/-- Each replication repeats all that follow it, so the last one has an empty window. -/
def windows (levels : Nat) : Chain :=
  (List.range levels).reverse.map fun following => .replication (.ofNat following) 1

example : (Template.expand .looping (windows 32)).isOk ∧
    Template.expand .looping (windows 33) = .error (.tooDeep 32) := by decide +kernel

end Bufr
