import Bufr.Proofs.Stream.Marks
import Mathlib.Logic.Function.Iterate
import Mathlib.Order.Monotone.Basic

/-!
A stream call by call. Every item is about a slice of the buffer that begins at the next mark, and
what is left out is just this slice. Slices come in order and do not overlap, so the items are no
more than a quarter of the octets.
-/

namespace Bufr.Stream

def slice (buffer : Octets) (start stop : Nat) : Octets := (buffer.drop start).take (stop - start)

structure StandsIn (buffer : Octets) (stream : Stream) : Prop where
  position_le : stream.position ≤ buffer.length
  rest_eq : stream.rest = buffer.drop stream.position

def Item.isFinal (item : Item) : Bool :=
  match item.result with
  | .ok _ => false
  | .error e => e.kind = .allocation

/-- The octets from `start` up to `stop` begin with the first mark at or behind `before`. -/
structure IsMarked (buffer : Octets) (before start stop : Nat) : Prop where
  before_le : before ≤ start
  long : start + 4 ≤ stop
  stop_le : stop ≤ buffer.length
  marked : Indicator.mark <+: buffer.drop start
  first : ∀ i, before ≤ i → i < start → ¬Indicator.mark <+: buffer.drop i

structure Item.IsAbout (resolver : Resolver) (buffer : Octets) (before after : Nat) (item : Item)
    (start stop : Nat) : Prop extends IsMarked buffer before start stop where
  found : IsFramed (slice buffer start stop) ∧
      item.result = Bulletin.decode resolver (slice buffer start stop) ∨
    IsDamaged (buffer.drop start) ∧ ∃ e, item.result = .error e ∧ e.kind ≠ .allocation
  rejected : ∀ e, item.result = .error e → e.kind ≠ .allocation →
    item.rejections = [(slice buffer start stop, e)]
  kept : (∀ e, item.result = .error e → e.kind = .allocation) → item.rejections = []
  after_eq : after = if item.isFinal then buffer.length else stop

variable {resolver : Resolver} {buffer octets : Octets} {stream stream' : Stream} {item : Item}

/-! ## Extents -/

theorem isFramed_of_extent {offset length : Nat} (found : extent offset octets = .ok length) :
    length ≤ octets.length ∧ IsFramed (octets.take length) := by
  unfold extent at found
  simp only at found
  split at found
  · cases found
  split at found
  · cases found
  next inside =>
    split at found
    · cases found
    next ends =>
      cases found
      rw [Nat.not_lt] at inside
      have ends : endsAt octets (declaredLength octets) := by simpa using ends
      have long : 12 ≤ declaredLength octets := by
        rw [endsAt, Bool.and_eq_true, decide_eq_true_eq] at ends
        exact ends.1
      have cut : (octets.take (declaredLength octets)).length = declaredLength octets :=
        List.length_take_of_le inside
      refine ⟨inside, ⟨by rwa [cut], ?_, (endsAt_iff long inside).1 ends⟩⟩
      rw [cut, ← declaredLength_append (by omega) (octets.drop (declaredLength octets)),
        List.take_append_drop]

theorem nextMark_bounds (long : 4 ≤ octets.length) :
    4 ≤ nextMark octets ∧ nextMark octets ≤ octets.length := by
  unfold nextMark
  split
  next skipped rest found =>
    obtain ⟨front, split, same, -⟩ := findMark_eq_some found
    have size := congrArg List.length split
    rw [List.length_drop, List.length_append] at size
    omega
  next => exact ⟨long, Nat.le_refl _⟩

theorem isDamaged_of_extent {offset length : Nat} {e : Error} (long : 4 ≤ octets.length)
    (found : extent offset octets = .error (length, e)) :
    IsDamaged octets ∧ e.kind ≠ .allocation ∧ 4 ≤ length ∧ length ≤ octets.length := by
  have bounds := nextMark_bounds long
  unfold extent at found
  simp only at found
  split at found
  next short =>
    cases found
    exact ⟨Or.inl short, nofun, long, Nat.le_refl _⟩
  split at found
  next cut =>
    cases found
    exact ⟨Or.inr (Or.inr (Or.inl cut)), nofun, bounds⟩
  next inside =>
    split at found
    next unframed =>
      cases found
      refine ⟨?_, nofun, bounds⟩
      by_cases tiny : declaredLength octets < 12
      · exact Or.inr (Or.inl tiny)
      · refine Or.inr (Or.inr (Or.inr fun ended => ?_))
        rw [(endsAt_iff (Nat.not_lt.1 tiny) (Nat.not_lt.1 inside)).2 ended] at unframed
        cases unframed
    · cases found

/-! ## One call -/

theorem standsIn_exhausted (standing : StandsIn buffer stream) :
    stream.exhausted.position = buffer.length ∧ StandsIn buffer stream.exhausted := by
  have size := congrArg List.length standing.rest_eq
  have := standing.position_le
  rw [List.length_drop] at size
  have all : stream.exhausted.position = buffer.length := by
    simp only [exhausted]
    omega
  refine ⟨all, ⟨Nat.le_of_eq all, ?_⟩⟩
  rw [all, List.drop_length]
  rfl

theorem standsIn_skip (standing : StandsIn buffer stream) {count : Nat}
    (inside : count ≤ stream.rest.length) : StandsIn buffer (stream.skip count) := by
  have := standing.position_le
  refine ⟨?_, ?_⟩
  · rw [standing.rest_eq, List.length_drop] at inside
    simp only [skip]
    omega
  · simp only [skip, standing.rest_eq, List.drop_drop]

theorem Item.isAbout_rejected {before start stop : Nat} {e : Error}
    (marked : IsMarked buffer before start stop) (kind : e.kind ≠ .allocation)
    (found : IsFramed (slice buffer start stop) ∧
        .error e = Bulletin.decode resolver (slice buffer start stop) ∨
      IsDamaged (buffer.drop start)) :
    (⟨.error e, some (slice buffer start stop)⟩ : Item).IsAbout resolver buffer before stop start
      stop where
  toIsMarked := marked
  found := found.imp_right fun damaged => ⟨damaged, e, rfl, kind⟩
  rejected := by
    rintro _ ⟨⟩ _
    rfl
  kept fatal := absurd (fatal e rfl) kind
  after_eq := by simp [isFinal, kind]

theorem isAbout_of_take (standing : StandsIn buffer stream)
    (marked : Indicator.mark <+: stream.rest) {before : Nat} (before_le : before ≤ stream.position)
    (first : ∀ i, before ≤ i → i < stream.position → ¬Indicator.mark <+: buffer.drop i)
    (taken : take resolver stream = (item, stream')) :
    StandsIn buffer stream' ∧
      ∃ stop, item.IsAbout resolver buffer before stream'.position stream.position stop := by
  have cut (length : Nat) : slice buffer stream.position (stream.position + length) =
      stream.rest.take length := by
    rw [slice, ← standing.rest_eq, Nat.add_sub_cancel_left]
  have sliced {length : Nat} (long : 4 ≤ length) (inside : length ≤ stream.rest.length) :
      IsMarked buffer before stream.position (stream.position + length) := by
    have within := standing.position_le
    rw [standing.rest_eq, List.length_drop] at inside
    exact ⟨before_le, by omega, by omega, standing.rest_eq ▸ marked, first⟩
  unfold take at taken
  split at taken
  next length e found =>
    cases taken
    obtain ⟨damaged, kind, long, inside⟩ := isDamaged_of_extent marked.length_le found
    rw [← cut]
    exact ⟨standsIn_skip standing inside, _,
      Item.isAbout_rejected (sliced long inside) kind (Or.inr (standing.rest_eq ▸ damaged))⟩
  next length found =>
    obtain ⟨inside, framed⟩ := isFramed_of_extent found
    have long := framed.long
    rw [List.length_take_of_le inside] at long
    have sliced := sliced (by omega) inside
    rw [← cut] at framed taken
    simp only at taken
    split at taken
    next bulletin decoded =>
      cases taken
      refine ⟨standsIn_skip standing inside, stream.position + length, ?_⟩
      exact {
        sliced with
        found := Or.inl ⟨framed, decoded.symm⟩
        rejected := nofun
        kept := fun _ => rfl
        after_eq := rfl }
    next e failed =>
      split at taken
      -- Where memory runs out the stream is given up as a whole, not from the next mark on.
      next fatal =>
        cases taken
        obtain ⟨all, stands⟩ := standsIn_exhausted standing
        refine ⟨stands, stream.position + length, ?_⟩
        exact {
          sliced with
          found := Or.inl ⟨framed, failed.symm⟩
          rejected := by
            intro e same kind
            cases same
            exact absurd fatal kind
          kept := fun _ => rfl
          after_eq := by simp [Item.isFinal, fatal, all] }
      next kind =>
        cases taken
        exact ⟨standsIn_skip standing inside, _,
          Item.isAbout_rejected sliced kind (Or.inl ⟨framed, failed.symm⟩)⟩

theorem isAbout_of_next (standing : StandsIn buffer stream)
    (one : next resolver stream = (some item, stream')) :
    StandsIn buffer stream' ∧
      ∃ start stop, item.IsAbout resolver buffer stream.position stream'.position start stop := by
  unfold next at one
  split at one
  · cases one
  next skipped rest found =>
    obtain ⟨front, split, rfl, unmarked, marked⟩ := findMark_eq_some found
    have same : buffer.drop stream.position = front ++ rest := standing.rest_eq ▸ split
    have size := congrArg List.length same
    have within := standing.position_le
    rw [List.length_drop, List.length_append] at size
    have there : StandsIn buffer ⟨stream.position + (0 + front.length), rest⟩ := by
      refine ⟨by simp only; omega, ?_⟩
      rw [Nat.zero_add, ← List.drop_drop, same, List.drop_left]
    have first (i : Nat) (from_ : stream.position ≤ i)
        (before : i < stream.position + (0 + front.length)) : ¬Indicator.mark <+: buffer.drop i := by
      have free := unmarked (i - stream.position) (by omega)
      rwa [← same, List.drop_drop, Nat.add_sub_of_le from_] at free
    simp only [Prod.mk.injEq, Option.some.injEq] at one
    obtain ⟨stands, stop, about⟩ := isAbout_of_take there marked (Nat.le_add_right _ _) first
      (Prod.ext one.1 one.2)
    exact ⟨stands, _, stop, about⟩

theorem exhausted_of_next (ended : (next resolver stream).1 = none) :
    next resolver stream = (none, stream.exhausted) := by
  unfold next at *
  split at ended
  next => rfl
  next => cases ended

/-! ## All calls -/

def later (resolver : Resolver) (buffer : Octets) (calls : Nat) : Stream :=
  (fun stream => (next resolver stream).2)^[calls] (ofOctets buffer)

def call (resolver : Resolver) (buffer : Octets) (calls : Nat) : Option Item :=
  (next resolver (later resolver buffer calls)).1

theorem next_later (resolver : Resolver) (buffer : Octets) (calls : Nat) :
    next resolver (later resolver buffer calls) =
      (call resolver buffer calls, later resolver buffer (calls + 1)) := by
  rw [later, later, Function.iterate_succ_apply']
  rfl

theorem standsIn_later (resolver : Resolver) (buffer : Octets) (calls : Nat) :
    StandsIn buffer (later resolver buffer calls) := by
  induction calls with
  | zero => exact ⟨Nat.zero_le _, rfl⟩
  | succ calls ih =>
      have one := next_later resolver buffer calls
      cases given : call resolver buffer calls with
      | none =>
          rw [given, exhausted_of_next given, Prod.mk.injEq] at one
          rw [← one.2]
          exact (standsIn_exhausted ih).2
      | some item =>
          rw [given] at one
          exact (isAbout_of_next ih one).1

theorem isAbout_of_call {calls : Nat} (given : call resolver buffer calls = some item) :
    ∃ start stop, item.IsAbout resolver buffer (later resolver buffer calls).position
      (later resolver buffer (calls + 1)).position start stop :=
  (isAbout_of_next (standsIn_later resolver buffer calls)
    (given ▸ next_later resolver buffer calls)).2

namespace Item.IsAbout

variable {before after start stop : Nat}

theorem stop_le_after (about : item.IsAbout resolver buffer before after start stop) :
    stop ≤ after := by
  rw [about.after_eq]
  split
  · exact about.stop_le
  · exact Nat.le_refl _

theorem room (about : item.IsAbout resolver buffer before after start stop) :
    before + 4 ≤ after := by
  have := about.before_le
  have := about.long
  have := about.stop_le_after
  omega

end Item.IsAbout

theorem later_succ_of_none {calls : Nat} (ended : call resolver buffer calls = none) :
    later resolver buffer (calls + 1) = (later resolver buffer calls).exhausted := by
  have one := next_later resolver buffer calls
  rw [exhausted_of_next ended, Prod.mk.injEq] at one
  exact one.2.symm

theorem position_le_succ (resolver : Resolver) (buffer : Octets) (calls : Nat) :
    (later resolver buffer calls).position ≤ (later resolver buffer (calls + 1)).position := by
  cases given : call resolver buffer calls with
  | none =>
      rw [later_succ_of_none given]
      exact Nat.le_add_right _ _
  | some item =>
      obtain ⟨start, stop, about⟩ := isAbout_of_call given
      exact Nat.le_of_add_right_le about.room

theorem position_mono (resolver : Resolver) (buffer : Octets) :
    Monotone fun calls => (later resolver buffer calls).position :=
  monotone_nat_of_le_succ (position_le_succ resolver buffer)

theorem four_mul_items_le (resolver : Resolver) (buffer : Octets) (calls : Nat) :
    4 * ((List.range calls).filterMap (call resolver buffer)).length ≤
      (later resolver buffer calls).position := by
  induction calls with
  | zero => exact Nat.le_refl 0
  | succ calls ih =>
      rw [List.range_succ, List.filterMap_append, List.length_append]
      cases given : call resolver buffer calls with
      | none =>
          have := position_le_succ resolver buffer calls
          simp only [List.filterMap_cons, given, List.filterMap_nil, List.length_nil]
          omega
      | some item =>
          obtain ⟨start, stop, about⟩ := isAbout_of_call given
          have := about.room
          simp only [List.filterMap_cons, given, List.filterMap_nil, List.length_singleton]
          omega

theorem call_of_exhausted {calls : Nat}
    (ended : (later resolver buffer calls).position = buffer.length) {behind : Nat}
    (after : calls ≤ behind) : call resolver buffer behind = none := by
  have grown : buffer.length ≤ (later resolver buffer behind).position :=
    ended ▸ position_mono resolver buffer after
  have left : (later resolver buffer behind).rest = [] := by
    rw [(standsIn_later resolver buffer behind).rest_eq]
    exact List.drop_eq_nil_of_le grown
  unfold call next
  rw [left]
  rfl

/-- What a whole run over a buffer keeps to, whatever the octets and the resolver. -/
structure Accounted (resolver : Resolver) (buffer : Octets) : Prop where
  position_le : ∀ n, (later resolver buffer n).position ≤ buffer.length
  item : ∀ n item, call resolver buffer n = some item →
    (later resolver buffer n).position < (later resolver buffer (n + 1)).position ∧
      ∃ start stop, item.IsAbout resolver buffer (later resolver buffer n).position
        (later resolver buffer (n + 1)).position start stop
  ordered : ∀ n m item other start stop start' stop', n < m →
    call resolver buffer n = some item → call resolver buffer m = some other →
    item.IsAbout resolver buffer (later resolver buffer n).position
      (later resolver buffer (n + 1)).position start stop →
    other.IsAbout resolver buffer (later resolver buffer m).position
      (later resolver buffer (m + 1)).position start' stop' →
    stop ≤ start'
  few : ∀ n, ((List.range n).filterMap (call resolver buffer)).length ≤ buffer.length / 4
  ended : ∀ n, (∀ item, call resolver buffer n = some item → item.isFinal) →
    (later resolver buffer (n + 1)).position = buffer.length ∧
      ∀ m, n < m → call resolver buffer m = none

theorem accounted (resolver : Resolver) (buffer : Octets) : Accounted resolver buffer where
  position_le n := (standsIn_later resolver buffer n).position_le
  item n item given := by
    obtain ⟨start, stop, about⟩ := isAbout_of_call given
    have := about.room
    exact ⟨by omega, start, stop, about⟩
  ordered n m item other start stop start' stop' before _ _ first second :=
    calc stop ≤ (later resolver buffer (n + 1)).position := first.stop_le_after
      _ ≤ (later resolver buffer m).position := position_mono resolver buffer before
      _ ≤ start' := second.before_le
  few n := by
    have := four_mul_items_le resolver buffer n
    have := (standsIn_later resolver buffer n).position_le
    omega
  ended n final := by
    have all : (later resolver buffer (n + 1)).position = buffer.length := by
      cases given : call resolver buffer n with
      | none =>
          rw [later_succ_of_none given]
          exact (standsIn_exhausted (standsIn_later resolver buffer n)).1
      | some item =>
          obtain ⟨start, stop, about⟩ := isAbout_of_call given
          rw [about.after_eq, if_pos (final item given)]
    exact ⟨all, fun m after => call_of_exhausted all after⟩

end Bufr.Stream
