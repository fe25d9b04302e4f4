import Bufr.Proofs.Coding.Referrals

/-!
What bitmaps mean, told by the requests that came before. A bitmap picks from the variables that could
be referred to when it was opened, attributes go to what it picked in turn, and the one that is kept is
the first to be completed behind a request to keep it.
-/

namespace Bufr.Bitmap

/-! ## Requests -/

inductive Request where
  | emit (isReferable : Bool)
  | start (kind : BitmapKind)
  | entry (present : Bool)
  | settle
  | keep
  | reuse
  | forget
  | cancel
  | target
deriving DecidableEq

inductive Answer where
  | done
  | completed (targets : List Nat)
  | target (index : Nat)
  | refused (e : Error)

def Answer.target? : Answer → Option Nat
  | target index => some index
  | _ => .none

def targets (bitmap : Bitmap) : List Nat :=
  match bitmap.phase with
  | .selected targets _ => targets.toList
  | _ => []

structure Session where
  bitmap : Bitmap
  referable : Array Nat
  emitted : Nat

namespace Session

def start : Session := ⟨.none, #[], 0⟩

/-- A bitmap that is too long for its targets is given up. Else what is refused changes nothing. -/
def perform (s : Session) : Request → Answer × Session
  | .emit isReferable => (.done, { s with
      referable := if isReferable then s.referable.push s.emitted else s.referable
      emitted := s.emitted + 1 })
  | .start kind => (.done, { s with bitmap := s.bitmap.start kind s.referable.size })
  | .entry present => (.done, { s with bitmap := s.bitmap.pushEntry present })
  | .settle =>
    match s.bitmap.settle s.referable with
    | .ok bitmap =>
      (if s.bitmap.isCollecting then .completed bitmap.targets else .done, { s with bitmap })
    | .error e => (.refused e, { s with bitmap := { s.bitmap with phase := .idle } })
  | .keep => (.done, { s with bitmap := s.bitmap.keep })
  | .reuse =>
    match s.bitmap.reuse with
    | .ok bitmap => (.done, { s with bitmap })
    | .error e => (.refused e, s)
  | .forget => (.done, { s with bitmap := s.bitmap.forget })
  | .cancel => (.done, { s with bitmap := .none })
  | .target =>
    match s.bitmap.nextTarget with
    | .ok (index, bitmap) => (.target index, { s with bitmap })
    | .error e => (.refused e, s)

def run (s : Session) (requests : List Request) : Session :=
  requests.foldl (fun s request => (s.perform request).2) s

end Session

def after (requests : List Request) : Session := Session.start.run requests

def answer (requests : List Request) (request : Request) : Answer :=
  ((after requests).perform request).1

/-! ## What the answers should be -/

namespace Request

def isReferable? : Request → Option Bool
  | emit isReferable => some isReferable
  | _ => .none

def entry? : Request → Option Bool
  | entry present => some present
  | _ => .none

def LeavesOpen : Request → Prop
  | start _ | settle | reuse | cancel => False
  | _ => True

def LeavesTargets : Request → Prop
  | start _ | reuse | cancel => False
  | _ => True

def Forgets : Request → Prop
  | forget | cancel => True
  | _ => False

end Request

def eligible (requests : List Request) : List Nat :=
  (requests.filterMap Request.isReferable?).zipIdx.filterMap fun (isReferable, i) =>
    if isReferable then some i else .none

def entries (requests : List Request) : List Bool := requests.filterMap Request.entry?

def Opened (requests front between : List Request) : Prop :=
  ∃ kind, requests = front ++ .start kind :: between ∧ ∀ request ∈ between, request.LeavesOpen

/-- Each entry stands for one of the last eligible variables, and the targets are those whose entry is
set, in their order. -/
structure Selects (eligible : List Nat) (entries : List Bool) (targets : List Nat) : Prop where
  increasing : targets.Pairwise (· < ·)
  mem_iff : ∀ i, i ∈ targets ↔ ∃ j, entries[j]? = some true ∧
    eligible[eligible.length - entries.length + j]? = some i

def Accepted (requests : List Request) : Prop :=
  ∀ place request, requests[place]? = some request →
    ∀ e, answer (requests.take place) request ≠ .refused e

def inTurn (targets : List Nat) (given : Nat) : Answer :=
  match targets[given % targets.length]? with
  | some i => .target i
  | .none => .refused .emptyBitmap

def Completes (requests : List Request) (place : Nat) (targets : List Nat) : Prop :=
  requests[place]? = some .settle ∧ answer (requests.take place) .settle = .completed targets

/-- A request to keep a bitmap is met by the first one that is completed behind it. -/
structure Meets (requests : List Request) (asked place : Nat) (targets : List Nat) : Prop where
  behind : asked < place
  asks : requests[asked]? = some .keep
  completes : Completes requests place targets
  first : ∀ between others, asked < between → between < place →
    ¬Completes requests between others

def Remembers (requests : List Request) (since : Nat) : Prop :=
  ∀ place request, since < place → requests[place]? = some request → ¬request.Forgets

def Keeps (requests : List Request) (targets : List Nat) : Prop :=
  ∃ asked place, Meets requests asked place targets ∧ Remembers requests asked ∧
    ∀ asked' place' others, place < asked' → ¬Meets requests asked' place' others

/-! ## Variables -/

variable {requests front between behind : List Request} {request : Request}

theorem after_concat : after (requests ++ [request]) = ((after requests).perform request).2 := by
  simp [after, Session.run]

theorem after_append : after (front ++ behind) = (after front).run behind := by
  simp [after, Session.run]

theorem getElem?_concat_iff {i : Nat} {other : Request} : (requests ++ [request])[i]? = some other ↔
    requests[i]? = some other ∨ i = requests.length ∧ request = other := by
  rcases Nat.lt_trichotomy i requests.length with before | rfl | beyond
  · rw [List.getElem?_append_left before, or_iff_left (by omega)]
  · simp
  · rw [List.getElem?_eq_none (by simp; omega), List.getElem?_eq_none beyond.le]
    simp only [reduceCtorEq, false_or, false_iff]
    omega

theorem lt_of_getElem? {i : Nat} {other : Request} (here : requests[i]? = some other) :
    i < requests.length :=
  (List.getElem?_eq_some_iff.1 here).1

def emitted (requests : List Request) : Nat := (requests.filterMap Request.isReferable?).length

theorem eligible_concat : eligible (requests ++ [request]) =
    eligible requests ++ if request = .emit true then [emitted requests] else [] := by
  unfold eligible emitted
  rw [List.filterMap_append, List.zipIdx_append, List.filterMap_append]
  cases request with
  | emit isReferable => cases isReferable <;> simp [Request.isReferable?]
  | _ => simp [Request.isReferable?, List.filterMap_cons]

theorem emitted_concat : emitted (requests ++ [request]) =
    emitted requests + (Request.isReferable? request).toList.length := by
  unfold emitted
  rw [List.filterMap_append, List.length_append]
  cases request <;> rfl

theorem prefix_eligible_append (front behind : List Request) :
    eligible front <+: eligible (front ++ behind) := by
  induction behind using List.reverseRecOn with
  | nil => simp
  | append_singleton behind request ih =>
      rw [← List.append_assoc, eligible_concat]
      exact ih.trans (List.prefix_append _ _)

theorem lt_of_mem_eligible {i : Nat} (mem : i ∈ eligible requests) : i < emitted requests := by
  obtain ⟨⟨isReferable, j⟩, here, same⟩ := List.mem_filterMap.1 mem
  cases isReferable <;> cases same
  have inside := (List.mem_zipIdx here).2.1
  rwa [Nat.zero_add] at inside

theorem increasing_eligible : (eligible requests).Pairwise (· < ·) := by
  induction requests using List.reverseRecOn with
  | nil => exact .nil
  | append_singleton requests request ih =>
      rw [eligible_concat]
      split
      · refine List.pairwise_append.2 ⟨ih, List.pairwise_singleton _ _, fun i mem j last => ?_⟩
        cases List.mem_singleton.1 last
        exact lt_of_mem_eligible mem
      · rwa [List.append_nil]

theorem referable_perform (s : Session) (request : Request) :
    (s.perform request).2.referable.toList =
        s.referable.toList ++ (if request = .emit true then [s.emitted] else []) ∧
      (s.perform request).2.emitted = s.emitted + (Request.isReferable? request).toList.length := by
  cases request with
  | emit isReferable => cases isReferable <;> simp [Session.perform, Request.isReferable?]
  | settle | reuse | target =>
      simp only [Session.perform]
      split <;> simp [Request.isReferable?]
  | _ => simp [Session.perform, Request.isReferable?]

theorem referable_after : (after requests).referable.toList = eligible requests ∧
    (after requests).emitted = emitted requests := by
  induction requests using List.reverseRecOn with
  | nil => exact ⟨rfl, rfl⟩
  | append_singleton requests request ih =>
      obtain ⟨same, count⟩ := referable_perform (after requests) request
      rw [after_concat, eligible_concat, emitted_concat, same, count, ih.1, ih.2]
      exact ⟨rfl, rfl⟩

/-! ## An open bitmap -/

theorem phase_perform_of_leavesOpen {s : Session} {available : Nat} {gone : Array Bool}
    (leaves : request.LeavesOpen) (phase : s.bitmap.phase = .collecting available gone) :
    (s.perform request).2.bitmap.phase =
      .collecting available (gone ++ (Request.entry? request).toList.toArray) := by
  cases request with
  | start | settle | reuse | cancel => cases leaves
  | entry => simp [Session.perform, pushEntry, phase, Request.entry?]
  | target => simp [Session.perform, nextTarget, phase, Request.entry?]
  | emit | keep | forget => simp [Session.perform, keep, forget, phase, Request.entry?]

theorem phase_run_of_leavesOpen {s : Session} {available : Nat} {gone : Array Bool}
    (leaves : ∀ request ∈ between, request.LeavesOpen)
    (phase : s.bitmap.phase = .collecting available gone) :
    (s.run between).bitmap.phase = .collecting available (gone ++ (entries between).toArray) := by
  induction between generalizing s gone with
  | nil => simpa [Session.run, entries] using phase
  | cons request between ih =>
      obtain ⟨first, others⟩ := List.forall_mem_cons.1 leaves
      refine (ih others (phase_perform_of_leavesOpen first phase)).trans ?_
      cases present : Request.entry? request <;> simp [entries, present]

theorem phase_after_start (front : List Request) (kind : BitmapKind)
    (leaves : ∀ request ∈ between, request.LeavesOpen) :
    (after (front ++ .start kind :: between)).bitmap.phase =
      .collecting (eligible front).length (entries between).toArray := by
  have opened : ((after front).perform (.start kind)).2.bitmap.phase =
      .collecting (eligible front).length #[] := by
    rw [← referable_after.1, Array.length_toList]
    rfl
  rw [after_append]
  exact (phase_run_of_leavesOpen leaves opened).trans (by rw [Array.empty_append])

theorem mem_pick_iff {candidates : List Nat} {entries : List Bool} {i : Nat} :
    i ∈ pick candidates entries ↔
      ∃ j : Nat, entries[j]? = some true ∧ candidates[j]? = some i := by
  unfold pick
  rw [List.mem_map]
  constructor
  · rintro ⟨⟨_, present⟩, mem, rfl⟩
    obtain ⟨here, set⟩ := List.mem_filter.1 mem
    obtain ⟨j, here⟩ := List.mem_iff_getElem?.1 here
    obtain ⟨candidate, entry⟩ := List.getElem?_zip_eq_some.1 here
    cases present with
    | true => exact ⟨j, entry, candidate⟩
    | false => cases set
  · rintro ⟨j, entry, candidate⟩
    refine ⟨(i, true), List.mem_filter.2 ⟨List.mem_iff_getElem?.2 ⟨j, ?_⟩, rfl⟩, rfl⟩
    exact List.getElem?_zip_eq_some.2 ⟨candidate, entry⟩

theorem selects_pick {eligible : List Nat} {entries : List Bool}
    (increasing : eligible.Pairwise (· < ·)) :
    Selects eligible entries (pick (eligible.drop (eligible.length - entries.length)) entries) where
  increasing := (increasing.sublist (List.drop_sublist _ _)).sublist (Bitmap.sublist_pick _ _)
  mem_iff i := by simp only [mem_pick_iff, List.getElem?_drop]

theorem window_eq {front rest : List Nat} {count : Nat} (enough : count ≤ front.length) :
    (front ++ rest).extract (front.length - count) (front.length - count + count) =
      front.drop (front.length - count) := by
  rw [List.extract_eq_take_drop, List.drop_append_of_le_length (by omega)]
  exact List.take_left' (by rw [List.length_drop]; omega)

theorem perform_settle_of_enough {s : Session} {available : Nat} {gone : Array Bool}
    (phase : s.bitmap.phase = .collecting available gone) (enough : gone.size ≤ available)
    {targets : List Nat} (picked : targets = pick (s.referable.extract (available - gone.size)
      (available - gone.size + gone.size)).toList gone.toList) :
    s.perform .settle = (.completed targets, { s with bitmap := { s.bitmap with
      phase := .selected targets.toArray 0
      keepNext := false
      kept := if s.bitmap.keepNext then some targets.toArray else s.bitmap.kept } }) := by
  have first : firstCandidate available gone.size = .ok (available - gone.size) :=
    Bitmap.firstCandidate_ok_iff.2 (by omega)
  simp only [Session.perform, settle, phase, first, isCollecting, ↓reduceIte, Bitmap.targets, ← picked]

theorem perform_settle_of_short {s : Session} {available : Nat} {gone : Array Bool}
    (phase : s.bitmap.phase = .collecting available gone) (short : available < gone.size) :
    s.perform .settle = (.refused (.bitmapTooLong gone.size available),
      { s with bitmap := { s.bitmap with phase := .idle } }) := by
  simp only [Session.perform, settle, phase, firstCandidate, if_pos short]

theorem perform_settle_of_closed {s : Session} (closed : s.bitmap.isCollecting = false) :
    s.perform .settle = (.done, s) := by
  simp [Session.perform, settle_of_closed closed, closed]

inductive SettleStep (s : Session) : Prop where
  | completed {targets} (performed : s.perform .settle = (.completed targets, { s with bitmap :=
      { s.bitmap with
        phase := .selected targets.toArray 0
        keepNext := false
        kept := if s.bitmap.keepNext then some targets.toArray else s.bitmap.kept } }))
  | tooLong {entries available} (performed : s.perform .settle =
      (.refused (.bitmapTooLong entries available), { s with bitmap := { s.bitmap with phase := .idle } }))
  | closed (was : s.bitmap.isCollecting = false) (performed : s.perform .settle = (.done, s))

theorem settleStep (s : Session) : SettleStep s := by
  cases phase : s.bitmap.phase with
  | collecting available gone =>
      by_cases enough : gone.size ≤ available
      · exact .completed (perform_settle_of_enough phase enough rfl)
      · exact .tooLong (perform_settle_of_short phase (Nat.lt_of_not_le enough))
  | idle | selected =>
      have closed : s.bitmap.isCollecting = false := by rw [isCollecting, phase]
      exact .closed closed (perform_settle_of_closed closed)

theorem settle_of_leavesOpen {kind : BitmapKind} (leaves : ∀ request ∈ between, request.LeavesOpen)
    (enough : (entries between).length ≤ (eligible front).length) :
    ∃ targets, Selects (eligible front) (entries between) targets ∧
      answer (front ++ .start kind :: between) .settle = .completed targets ∧
      (after (front ++ .start kind :: between ++ [.settle])).bitmap.phase =
        .selected targets.toArray 0 := by
  have phase := phase_after_start front kind leaves
  -- Later variables come behind those that were eligible, out of reach of the window.
  obtain ⟨rest, grown⟩ := prefix_eligible_append front (.start kind :: between)
  have picked : pick ((eligible front).drop ((eligible front).length - (entries between).length))
        (entries between) =
      pick ((after (front ++ .start kind :: between)).referable.extract
        ((eligible front).length - (entries between).toArray.size)
        ((eligible front).length - (entries between).toArray.size +
          (entries between).toArray.size)).toList (entries between).toArray.toList := by
    rw [Array.toList_extract, referable_after.1, ← grown, List.size_toArray, window_eq enough]
  have settled := perform_settle_of_enough phase enough picked
  refine ⟨_, selects_pick increasing_eligible, congrArg Prod.fst settled, ?_⟩
  rw [after_concat, settled]

theorem settle_refused {kind : BitmapKind} (leaves : ∀ request ∈ between, request.LeavesOpen)
    (short : (eligible front).length < (entries between).length) :
    answer (front ++ .start kind :: between) .settle =
      .refused (.bitmapTooLong (entries between).length (eligible front).length) := by
  have phase := phase_after_start front kind leaves
  exact congrArg Prod.fst (perform_settle_of_short phase short)

theorem accepted_concat_iff : Accepted (requests ++ [request]) ↔
    Accepted requests ∧ ∀ e, answer requests request ≠ .refused e := by
  simp only [Accepted, getElem?_concat_iff]
  constructor
  · intro accepted
    refine ⟨fun place other here => ?_, ?_⟩
    · have earlier := accepted place other (.inl here)
      rwa [List.take_append_of_le_length (lt_of_getElem? here).le] at earlier
    · have last := accepted requests.length request (.inr ⟨rfl, rfl⟩)
      rwa [List.take_left' rfl] at last
  · rintro ⟨accepted, last⟩ place other (here | ⟨rfl, rfl⟩)
    · rw [List.take_append_of_le_length (lt_of_getElem? here).le]
      exact accepted place other here
    · rwa [List.take_left' rfl]

theorem isCollecting_perform {s : Session} (accepted : ∀ e, (s.perform request).1 ≠ .refused e)
    (collecting : (s.perform request).2.bitmap.isCollecting = true) :
    (∃ kind, request = .start kind) ∨ s.bitmap.isCollecting = true ∧ request.LeavesOpen := by
  cases request with
  | start kind => exact .inl ⟨kind, rfl⟩
  | emit | keep | forget => exact .inr ⟨collecting, trivial⟩
  | cancel => cases collecting
  | entry present =>
      simp only [Session.perform, pushEntry] at collecting
      split at collecting
      next phase => exact .inr ⟨by rw [isCollecting, phase], trivial⟩
      next => exact .inr ⟨collecting, trivial⟩
  | settle =>
      cases settleStep s with
      | completed performed | tooLong performed =>
          rw [performed] at collecting
          cases collecting
      | closed was performed =>
          rw [performed, was] at collecting
          cases collecting
  | reuse =>
      simp only [Session.perform, reuse] at collecting accepted
      cases kept : s.bitmap.kept with
      | none => exact absurd (by rw [kept]) (accepted .noKeptBitmap)
      | some targets =>
          rw [kept] at collecting
          cases collecting
  | target =>
      simp only [Session.perform] at collecting accepted
      cases found : s.bitmap.nextTarget with
      | error e => exact absurd (by rw [found]) (accepted e)
      | ok target =>
          rw [found] at collecting
          rw [Bitmap.isCollecting_nextTarget found] at collecting
          cases collecting

theorem exists_opened (accepted : Accepted requests)
    (collecting : (after requests).bitmap.isCollecting = true) :
    ∃ front between, Opened requests front between := by
  induction requests using List.reverseRecOn with
  | nil => cases collecting
  | append_singleton requests request ih =>
      obtain ⟨earlier, last⟩ := accepted_concat_iff.1 accepted
      rw [after_concat] at collecting
      rcases isCollecting_perform last collecting with ⟨kind, rfl⟩ | ⟨before, leaves⟩
      · exact ⟨requests, [], kind, rfl, nofun⟩
      · obtain ⟨front, between, kind, rfl, opened⟩ := ih earlier before
        refine ⟨front, between ++ [request], kind, by simp, ?_⟩
        exact List.forall_mem_append.2 ⟨opened, by simpa using leaves⟩

theorem opened_of_completed {targets : List Nat} (accepted : Accepted requests)
    (completed : answer requests .settle = .completed targets) :
    ∃ front between, Opened requests front between ∧
      Selects (eligible front) (entries between) targets := by
  have collecting : (after requests).bitmap.isCollecting = true := by
    by_contra closed
    rw [answer, perform_settle_of_closed (Bool.eq_false_iff.2 closed)] at completed
    cases completed
  obtain ⟨front, between, kind, rfl, leaves⟩ := exists_opened accepted collecting
  refine ⟨front, between, ⟨kind, rfl, leaves⟩, ?_⟩
  rcases Nat.lt_or_ge (eligible front).length (entries between).length with short | enough
  · cases (settle_refused leaves short).symm.trans completed
  · obtain ⟨_, selects, settled, -⟩ := settle_of_leavesOpen leaves enough
    cases settled.symm.trans completed
    exact selects

/-! ## Targets in turn -/

theorem perform_target {s : Session} {targets : Array Nat} {used : Nat}
    (phase : s.bitmap.phase = .selected targets used) :
    (s.perform .target).1 = inTurn targets.toList used := by
  simp only [Session.perform, nextTarget, phase, inTurn, Array.getElem?_toList, Array.length_toList]
  cases targets[used % targets.size]? <;> rfl

theorem phase_perform_of_leavesTargets {s : Session} {targets : Array Nat} {used : Nat}
    (leaves : request.LeavesTargets) (phase : s.bitmap.phase = .selected targets used) :
    ∃ used', (s.perform request).2.bitmap.phase = .selected targets used' ∧
      (targets ≠ #[] → used' = used + [request].count .target) := by
  cases request with
  | start | reuse | cancel => cases leaves
  | settle =>
      have closed : s.bitmap.isCollecting = false := by rw [isCollecting, phase]
      rw [perform_settle_of_closed closed]
      exact ⟨used, phase, fun _ => rfl⟩
  | target =>
      simp only [Session.perform, nextTarget, phase]
      cases here : targets[used % targets.size]? with
      | none =>
          refine ⟨used, phase, fun something => ?_⟩
          have positive := Nat.mod_lt used (Array.size_pos_iff.2 something)
          exact absurd (Array.getElem?_eq_none_iff.1 here) (Nat.not_le_of_lt positive)
      | some i => exact ⟨used + 1, rfl, fun _ => rfl⟩
  | entry => exact ⟨used, by simp [Session.perform, pushEntry, phase], fun _ => rfl⟩
  | emit | keep | forget => exact ⟨used, phase, fun _ => rfl⟩

theorem phase_run_of_leavesTargets {s : Session} {targets : Array Nat} {used : Nat}
    (leaves : ∀ request ∈ behind, request.LeavesTargets)
    (phase : s.bitmap.phase = .selected targets used) :
    ∃ used', (s.run behind).bitmap.phase = .selected targets used' ∧
      (targets ≠ #[] → used' = used + behind.count .target) := by
  induction behind generalizing s used with
  | nil => exact ⟨used, phase, fun _ => rfl⟩
  | cons request behind ih =>
      obtain ⟨first, others⟩ := List.forall_mem_cons.1 leaves
      obtain ⟨used₁, phase₁, given₁⟩ := phase_perform_of_leavesTargets first phase
      obtain ⟨used', phase', given⟩ := ih others phase₁
      refine ⟨used', phase', fun something => ?_⟩
      rw [given something, given₁ something, ← List.singleton_append (l := behind), List.count_append,
        Nat.add_assoc]

theorem answer_target {targets : List Nat}
    (phase : (after requests).bitmap.phase = .selected targets.toArray 0)
    (leaves : ∀ request ∈ behind, request.LeavesTargets) :
    answer (requests ++ behind) .target = inTurn targets (behind.count .target) := by
  obtain ⟨used, later, given⟩ := phase_run_of_leavesTargets leaves phase
  rw [← after_append] at later
  rw [answer, perform_target later]
  by_cases something : targets = []
  · rw [something]
    rfl
  · rw [given (by simpa using something), Nat.zero_add]

/-! ## Kept bitmaps -/

def Unmet (requests : List Request) (asked : Nat) : Prop :=
  requests[asked]? = some .keep ∧ ∀ place targets, asked < place → ¬Completes requests place targets

def Awaits (requests : List Request) : Prop :=
  ∃ asked, Unmet requests asked ∧ Remembers requests asked

def CompletesNext (requests : List Request) (request : Request) (targets : List Nat) : Prop :=
  request = .settle ∧ answer requests .settle = .completed targets

theorem completes_concat_iff {place : Nat} {targets : List Nat} :
    Completes (requests ++ [request]) place targets ↔ Completes requests place targets ∨
      place = requests.length ∧ CompletesNext requests request targets := by
  unfold Completes CompletesNext
  rw [getElem?_concat_iff, or_and_right]
  refine or_congr ?_ ?_
  · refine and_congr_right fun here => ?_
    rw [List.take_append_of_le_length (lt_of_getElem? here).le]
  · rw [and_assoc]
    refine and_congr_right fun here => ?_
    rw [here, List.take_left' rfl]

theorem Completes.lt_length {place : Nat} {targets : List Nat}
    (completes : Completes requests place targets) : place < requests.length :=
  lt_of_getElem? completes.1

theorem unmet_concat_iff {asked : Nat} : Unmet (requests ++ [request]) asked ↔
    Unmet requests asked ∧ (∀ targets, ¬CompletesNext requests request targets) ∨
      asked = requests.length ∧ request = .keep := by
  simp only [Unmet, getElem?_concat_iff, completes_concat_iff]
  constructor
  · rintro ⟨asks | ⟨rfl, rfl⟩, unmet⟩
    · refine .inl ⟨⟨asks, fun place targets behind completes => ?_⟩, fun targets next => ?_⟩
      · exact unmet place targets behind (.inl completes)
      · exact unmet _ targets (lt_of_getElem? asks) (.inr ⟨rfl, next⟩)
    · exact .inr ⟨rfl, rfl⟩
  · rintro (⟨⟨asks, unmet⟩, silent⟩ | ⟨rfl, rfl⟩)
    · refine ⟨.inl asks, ?_⟩
      rintro place targets behind (completes | ⟨-, next⟩)
      · exact unmet place targets behind completes
      · exact silent targets next
    · refine ⟨.inr ⟨rfl, rfl⟩, ?_⟩
      rintro place targets behind (completes | ⟨rfl, -⟩)
      · exact Nat.lt_asymm behind completes.lt_length
      · exact Nat.lt_irrefl _ behind

theorem remembers_concat_iff {since : Nat} (inside : since < requests.length) :
    Remembers (requests ++ [request]) since ↔ Remembers requests since ∧ ¬request.Forgets := by
  simp only [Remembers, getElem?_concat_iff]
  constructor
  · intro remembers
    refine ⟨fun place other behind here => remembers place other behind (.inl here), ?_⟩
    exact remembers requests.length request inside (.inr ⟨rfl, rfl⟩)
  · rintro ⟨remembers, last⟩ place other behind (here | ⟨rfl, rfl⟩)
    · exact remembers place other behind here
    · exact last

theorem meets_concat_iff {asked place : Nat} {targets : List Nat} :
    Meets (requests ++ [request]) asked place targets ↔ Meets requests asked place targets ∨
      place = requests.length ∧ Unmet requests asked ∧ CompletesNext requests request targets := by
  constructor
  · rintro ⟨behind, asks, completes, first⟩
    simp only [completes_concat_iff] at first
    have inside := completes.lt_length
    rw [List.length_append, List.length_singleton] at inside
    have asks : requests[asked]? = some .keep := by
      rwa [List.getElem?_append_left (by omega)] at asks
    rcases completes_concat_iff.1 completes with completes | ⟨rfl, next⟩
    · exact .inl ⟨behind, asks, completes, fun between others low high earlier =>
        first between others low high (.inl earlier)⟩
    · refine .inr ⟨rfl, ⟨asks, fun between others low earlier => ?_⟩, next⟩
      exact first between others low earlier.lt_length (.inl earlier)
  · rintro (⟨behind, asks, completes, first⟩ | ⟨rfl, ⟨asks, unmet⟩, next⟩)
    · refine ⟨behind, getElem?_concat_iff.2 (.inl asks), completes_concat_iff.2 (.inl completes),
        fun between others low high earlier => ?_⟩
      rcases completes_concat_iff.1 earlier with earlier | ⟨rfl, -⟩
      · exact first between others low high earlier
      · exact Nat.lt_asymm high completes.lt_length
    · refine ⟨lt_of_getElem? asks, getElem?_concat_iff.2 (.inl asks),
        completes_concat_iff.2 (.inr ⟨rfl, next⟩), fun between others low high earlier => ?_⟩
      rcases completes_concat_iff.1 earlier with earlier | ⟨rfl, -⟩
      · exact unmet between others low earlier
      · exact Nat.lt_irrefl _ high

theorem awaits_concat_iff : Awaits (requests ++ [request]) ↔ request = .keep ∨
    Awaits requests ∧ ¬request.Forgets ∧ ∀ targets, ¬CompletesNext requests request targets := by
  simp only [Awaits, unmet_concat_iff]
  constructor
  · rintro ⟨asked, ⟨unmet, silent⟩ | ⟨rfl, rfl⟩, remembers⟩
    · obtain ⟨remembers, last⟩ := (remembers_concat_iff (lt_of_getElem? unmet.1)).1 remembers
      exact .inr ⟨⟨asked, unmet, remembers⟩, last, silent⟩
    · exact .inl rfl
  · rintro (rfl | ⟨⟨asked, unmet, remembers⟩, last, silent⟩)
    · refine ⟨requests.length, .inr ⟨rfl, rfl⟩, fun place other behind here => ?_⟩
      have inside := lt_of_getElem? here
      rw [List.length_append, List.length_singleton] at inside
      omega
    · have inside := lt_of_getElem? unmet.1
      exact ⟨asked, .inl ⟨unmet, silent⟩, (remembers_concat_iff inside).2 ⟨remembers, last⟩⟩

theorem cases_of_keeps_concat {targets : List Nat} (keeps : Keeps (requests ++ [request]) targets) :
    (Awaits requests ∧ CompletesNext requests request targets) ∨
      Keeps requests targets ∧ ¬request.Forgets ∧
        ¬(Awaits requests ∧ ∃ others, CompletesNext requests request others) := by
  obtain ⟨asked, place, meets, remembers, last⟩ := keeps
  rcases meets_concat_iff.1 meets with meets | ⟨rfl, unmet, next⟩
  · have inside := lt_of_getElem? meets.asks
    obtain ⟨remembers, kept⟩ := (remembers_concat_iff inside).1 remembers
    refine .inr ⟨⟨asked, place, meets, remembers, fun asked' place' others low meets' => ?_⟩, kept, ?_⟩
    · exact last asked' place' others low (meets_concat_iff.2 (.inl meets'))
    · rintro ⟨⟨asked', unmet, -⟩, others, next⟩
      rcases Nat.lt_trichotomy asked' place with before | rfl | beyond
      · exact unmet.2 place targets before meets.completes
      · cases unmet.1.symm.trans meets.completes.1
      · exact last asked' _ others beyond (meets_concat_iff.2 (.inr ⟨rfl, unmet, next⟩))
  · have inside := lt_of_getElem? unmet.1
    exact .inl ⟨⟨asked, unmet, ((remembers_concat_iff inside).1 remembers).1⟩, next⟩

theorem keeps_concat_of_awaits {targets : List Nat} (awaits : Awaits requests)
    (next : CompletesNext requests request targets) : Keeps (requests ++ [request]) targets := by
  obtain ⟨asked, unmet, remembers⟩ := awaits
  have kept : ¬request.Forgets := by
    rw [next.1]
    exact id
  refine ⟨asked, requests.length, meets_concat_iff.2 (.inr ⟨rfl, unmet, next⟩),
    (remembers_concat_iff (lt_of_getElem? unmet.1)).2 ⟨remembers, kept⟩,
    fun asked' place' others low meets => ?_⟩
  have inside := meets.completes.lt_length
  rw [List.length_append, List.length_singleton] at inside
  have := meets.behind
  omega

theorem Keeps.concat {targets : List Nat} (keeps : Keeps requests targets) (kept : ¬request.Forgets)
    (unawaited : ¬(Awaits requests ∧ ∃ others, CompletesNext requests request others)) :
    Keeps (requests ++ [request]) targets := by
  obtain ⟨asked, place, meets, remembers, last⟩ := keeps
  refine ⟨asked, place, meets_concat_iff.2 (.inl meets),
    (remembers_concat_iff (lt_of_getElem? meets.asks)).2 ⟨remembers, kept⟩,
    fun asked' place' others low meets' => ?_⟩
  rcases meets_concat_iff.1 meets' with meets' | ⟨rfl, unmet, next⟩
  · exact last asked' place' others low meets'
  · have since : asked < asked' := meets.behind.trans low
    exact unawaited ⟨⟨asked', unmet, fun place other behind => remembers place other (since.trans behind)⟩,
      others, next⟩

theorem keeps_concat_iff {targets : List Nat} : Keeps (requests ++ [request]) targets ↔
    (Awaits requests ∧ CompletesNext requests request targets) ∨
      Keeps requests targets ∧ ¬request.Forgets ∧
        ¬(Awaits requests ∧ ∃ others, CompletesNext requests request others) := by
  refine ⟨cases_of_keeps_concat, ?_⟩
  rintro (⟨awaits, next⟩ | ⟨keeps, kept, unawaited⟩)
  · exact keeps_concat_of_awaits awaits next
  · exact keeps.concat kept unawaited

inductive KeepStep (s : Session) (request : Request) : Prop where
  | completed {targets} (settles : request = .settle)
      (told : (s.perform .settle).1 = .completed targets)
      (keepNext : (s.perform request).2.bitmap.keepNext = false)
      (kept : (s.perform request).2.bitmap.kept =
        if s.bitmap.keepNext then some targets.toArray else s.bitmap.kept)
  | asked (asks : request = .keep) (keepNext : (s.perform request).2.bitmap.keepNext = true)
      (kept : (s.perform request).2.bitmap.kept = s.bitmap.kept)
  | forgot (forgets : request.Forgets) (keepNext : (s.perform request).2.bitmap.keepNext = false)
      (kept : (s.perform request).2.bitmap.kept = .none)
  | other (silent : request ≠ .keep) (remembers : ¬request.Forgets)
      (told : ∀ targets, request = .settle → (s.perform .settle).1 ≠ .completed targets)
      (keepNext : (s.perform request).2.bitmap.keepNext = s.bitmap.keepNext)
      (kept : (s.perform request).2.bitmap.kept = s.bitmap.kept)

theorem keepStep_settle (s : Session) : KeepStep s .settle := by
  cases settleStep s with
  | completed performed =>
      exact .completed rfl (congrArg Prod.fst performed) (by rw [performed]) (by rw [performed])
  | tooLong performed | closed _ performed =>
      have told (targets : List Nat) : (s.perform .settle).1 ≠ .completed targets := by
        rw [performed]
        exact Answer.noConfusion
      exact .other (by decide) id (fun _ _ => told _) (by rw [performed]) (by rw [performed])

theorem keepStep (s : Session) (request : Request) : KeepStep s request := by
  cases request with
  | keep => exact .asked rfl rfl rfl
  | forget | cancel => exact .forgot trivial rfl rfl
  | emit | start => exact .other nofun id nofun rfl rfl
  | settle => exact keepStep_settle s
  | entry present =>
      have same : (s.bitmap.pushEntry present).keepNext = s.bitmap.keepNext ∧
          (s.bitmap.pushEntry present).kept = s.bitmap.kept := by
        unfold pushEntry
        split <;> exact ⟨rfl, rfl⟩
      exact .other nofun id nofun same.1 same.2
  | reuse =>
      have same : (s.perform .reuse).2.bitmap.keepNext = s.bitmap.keepNext ∧
          (s.perform .reuse).2.bitmap.kept = s.bitmap.kept := by
        cases kept : s.bitmap.kept <;> simp [Session.perform, reuse, kept]
      exact .other nofun id nofun same.1 same.2
  | target =>
      have same : (s.perform .target).2.bitmap.keepNext = s.bitmap.keepNext ∧
          (s.perform .target).2.bitmap.kept = s.bitmap.kept := by
        simp only [Session.perform]
        split
        next found =>
          obtain ⟨_, _, -, -, rfl⟩ := Bitmap.nextTarget_ok_iff.1 found
          exact ⟨rfl, rfl⟩
        next => exact ⟨rfl, rfl⟩
      exact .other nofun id nofun same.1 same.2

structure KeptAs (requests : List Request) : Prop where
  awaits : (after requests).bitmap.keepNext = true ↔ Awaits requests
  keeps : ∀ targets, (after requests).bitmap.kept = some targets.toArray ↔ Keeps requests targets

theorem keptAs_nil : KeptAs [] where
  awaits := by
    refine ⟨nofun, ?_⟩
    rintro ⟨_, unmet, -⟩
    cases unmet.1
  keeps targets := by
    refine ⟨nofun, ?_⟩
    rintro ⟨_, _, meets, -⟩
    cases meets.asks

theorem KeptAs.completed (kept : KeptAs requests) {targets : List Nat}
    (told : answer requests .settle = .completed targets)
    (keepNext : (after (requests ++ [.settle])).bitmap.keepNext = false)
    (same : (after (requests ++ [.settle])).bitmap.kept =
      if (after requests).bitmap.keepNext then some targets.toArray
      else (after requests).bitmap.kept) :
    KeptAs (requests ++ [.settle]) := by
  have next (others : List Nat) : CompletesNext requests .settle others ↔ targets = others := by
    simp [CompletesNext, told]
  refine ⟨by simp [awaits_concat_iff, keepNext, next], fun others => ?_⟩
  rw [keeps_concat_iff, same]
  by_cases awaited : Awaits requests
  · simp [kept.awaits.2 awaited, awaited, next]
  · simp [Bool.eq_false_iff.2 (mt kept.awaits.1 awaited), awaited, kept.keeps, Request.Forgets]

theorem KeptAs.concat (kept : KeptAs requests) (request : Request) :
    KeptAs (requests ++ [request]) := by
  cases keepStep (after requests) request with
  | completed settles told keepNext same =>
      subst settles
      rw [← after_concat] at keepNext same
      exact kept.completed told keepNext same
  | asked asks keepNext same =>
      subst asks
      rw [← after_concat] at keepNext same
      have silent (targets : List Nat) : ¬CompletesNext requests .keep targets := nofun
      refine ⟨iff_of_true keepNext (awaits_concat_iff.2 (.inl rfl)), fun targets => ?_⟩
      simp [keeps_concat_iff, same, kept.keeps, silent, Request.Forgets]
  | forgot forgets keepNext none =>
      rw [← after_concat] at keepNext none
      have silent (targets : List Nat) : ¬CompletesNext requests request targets := by
        rintro ⟨rfl, -⟩
        exact forgets
      have noKeep : request ≠ .keep := by
        rintro rfl
        exact forgets
      constructor
      · simp [awaits_concat_iff, keepNext, forgets, noKeep]
      · simp [keeps_concat_iff, none, forgets, silent]
  | other noKeep remembers told keepNext same =>
      rw [← after_concat] at keepNext same
      have silent (targets : List Nat) : ¬CompletesNext requests request targets :=
        fun next => told targets next.1 next.2
      constructor
      · simp [awaits_concat_iff, keepNext, kept.awaits, noKeep, remembers, silent]
      · simp [keeps_concat_iff, same, kept.keeps, remembers, silent]

theorem keptAs (requests : List Request) : KeptAs requests := by
  induction requests using List.reverseRecOn with
  | nil => exact keptAs_nil
  | append_singleton requests request ih => exact ih.concat request

theorem reuse_of_keeps {targets : List Nat} (keeps : Keeps requests targets) :
    answer requests .reuse = .done ∧
      (after (requests ++ [.reuse])).bitmap.phase = .selected targets.toArray 0 := by
  have kept := ((keptAs requests).keeps targets).2 keeps
  rw [after_concat, answer]
  simp only [Session.perform, reuse, kept, and_self]

theorem reuse_refused (unkept : ∀ targets, ¬Keeps requests targets) :
    answer requests .reuse = .refused .noKeptBitmap ∧
      after (requests ++ [.reuse]) = after requests := by
  have kept : (after requests).bitmap.kept = .none := by
    refine Option.eq_none_iff_forall_ne_some.2 fun targets kept => ?_
    exact unkept targets.toList (((keptAs requests).keeps _).1 (by rw [kept, Array.toArray_toList]))
  rw [after_concat, answer]
  simp only [Session.perform, reuse, kept, and_self]

end Bufr.Bitmap
