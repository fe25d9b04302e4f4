import Bufr.Proofs.Coding.Operators
import Bufr.Proofs.Stream.Marks

/-!
Buffers in pieces: bulletins, damaged ones and what lies in between. A stream reports each bulletin
and each damaged one once and in order, whatever is around them.
-/

namespace Bufr

inductive Piece where
  | intact (octets : Octets)
  | refused (octets : Octets)
  | damaged (octets : Octets)
  | gap (octets : Octets)

namespace Piece

def octets : Piece → Octets
  | intact octets => octets
  | refused octets => octets
  | damaged octets => octets
  | gap octets => octets

def buffer (pieces : List Piece) : Octets := pieces.flatMap octets

def gapAhead : List Piece → Octets
  | gap octets :: pieces => octets ++ gapAhead pieces
  | _ => []

def behindGap : List Piece → List Piece
  | gap _ :: pieces => behindGap pieces
  | pieces => pieces

/-- Bulletins end where they say. Outside of them a mark begins nothing but a damaged piece, which is
damaged as it stands in the buffer, so that its length can lead into the pieces behind it. -/
inductive WellFormed (resolver : Resolver) : List Piece → Prop where
  | nil : WellFormed resolver []
  | intact {octets bulletin pieces} (framed : Stream.IsFramed octets)
      (decoded : Bulletin.decode resolver octets = .ok bulletin) (more : WellFormed resolver pieces) :
      WellFormed resolver (.intact octets :: pieces)
  | refused {octets e pieces} (marked : Indicator.mark <+: octets) (framed : Stream.IsFramed octets)
      (failed : Bulletin.decode resolver octets = .error e) (kind : e.kind ≠ .allocation)
      (more : WellFormed resolver pieces) : WellFormed resolver (.refused octets :: pieces)
  | damaged {octets pieces} (marked : Indicator.mark <+: octets)
      (damaged : Stream.IsDamaged (octets ++ buffer pieces))
      (unmarked : Unmarked octets.tail (buffer pieces)) (more : WellFormed resolver pieces) :
      WellFormed resolver (.damaged octets :: pieces)
  | gap {octets pieces} (unmarked : Unmarked octets (buffer pieces))
      (more : WellFormed resolver pieces) : WellFormed resolver (.gap octets :: pieces)

/-- One item for each piece that is no gap. A damaged piece is rejected together with the gap behind
it. -/
inductive Reports (resolver : Resolver) : List Piece → List Stream.Item → Prop where
  | nil : Reports resolver [] []
  | intact {octets bulletin pieces items} (decoded : Bulletin.decode resolver octets = .ok bulletin)
      (more : Reports resolver pieces items) :
      Reports resolver (.intact octets :: pieces) (⟨.ok bulletin, none⟩ :: items)
  | refused {octets e pieces items} (failed : Bulletin.decode resolver octets = .error e)
      (more : Reports resolver pieces items) :
      Reports resolver (.refused octets :: pieces) (⟨.error e, some octets⟩ :: items)
  | damaged {octets e pieces items} (more : Reports resolver pieces items) :
      Reports resolver (.damaged octets :: pieces)
        (⟨.error e, some (octets ++ gapAhead pieces)⟩ :: items)
  | gap {octets pieces items} (more : Reports resolver pieces items) :
      Reports resolver (.gap octets :: pieces) items

end Piece

inductive Stream.Yields (resolver : Resolver) : Stream → List Stream.Item → Prop where
  | done {stream} (ended : (next resolver stream).1 = none) : Yields resolver stream []
  | item {stream item rest items} (one : next resolver stream = (some item, rest))
      (more : Yields resolver rest items) : Yields resolver stream (item :: items)

namespace Stream

variable {resolver : Resolver} {stream stream' : Stream} {items items' : List Item}

theorem Yields.unique (yields : Yields resolver stream items)
    (yields' : Yields resolver stream items') : items' = items := by
  induction yields generalizing items' with
  | done ended =>
      cases yields' with
      | done => rfl
      | item one =>
          rw [one] at ended
          cases ended
  | item one _ ih =>
      cases yields' with
      | done ended =>
          rw [one] at ended
          cases ended
      | item one' more =>
          cases one.symm.trans one'
          rw [ih more]

theorem Yields.congr (same : next resolver stream = next resolver stream')
    (yields : Yields resolver stream items) : Yields resolver stream' items := by
  cases yields with
  | done ended => exact .done (same ▸ ended)
  | item one more => exact .item (same ▸ one) more

end Stream

namespace Piece

variable {resolver : Resolver} {pieces : List Piece}

theorem buffer_eq (pieces : List Piece) :
    buffer pieces = gapAhead pieces ++ buffer (behindGap pieces) := by
  induction pieces with
  | nil => rfl
  | cons piece pieces ih =>
      cases piece with
      | gap octets =>
          rw [gapAhead, behindGap, List.append_assoc, ← ih]
          rfl
      | intact | refused | damaged => rfl

theorem WellFormed.unmarked (wellFormed : WellFormed resolver pieces) :
    Unmarked (gapAhead pieces) (buffer (behindGap pieces)) := by
  induction wellFormed with
  | gap unmarked _ ih =>
      rw [buffer_eq] at unmarked
      exact unmarked.append ih
  | nil | intact | refused | damaged => exact nofun

theorem WellFormed.marked (wellFormed : WellFormed resolver pieces) :
    behindGap pieces = [] ∨ Indicator.mark <+: buffer (behindGap pieces) := by
  induction wellFormed with
  | nil => exact Or.inl rfl
  | intact _ decoded => exact Or.inr ((mark_of_decode decoded).trans (List.prefix_append _ _))
  | refused marked => exact Or.inr (marked.trans (List.prefix_append _ _))
  | damaged marked => exact Or.inr (marked.trans (List.prefix_append _ _))
  | gap _ _ ih => exact ih

theorem WellFormed.next_behindGap (wellFormed : WellFormed resolver pieces) (position : Nat) :
    Stream.next resolver ⟨position, buffer pieces⟩ =
      Stream.next resolver ⟨position + (gapAhead pieces).length, buffer (behindGap pieces)⟩ := by
  rw [buffer_eq]
  exact Stream.next_of_unmarked resolver position wellFormed.unmarked

/-! ## Damaged pieces -/

section

variable {octets : Octets} (marked : Indicator.mark <+: octets)
  (unmarked : Unmarked octets.tail (buffer pieces)) (wellFormed : WellFormed resolver pieces)
include marked unmarked wellFormed

theorem nextMark_damaged :
    Stream.nextMark (octets ++ buffer pieces) = (octets ++ gapAhead pieces).length := by
  have four : 4 ≤ octets.length := marked.length_le
  -- The search for the next mark starts behind the one of the damaged piece.
  have passed : Unmarked (octets.drop 4 ++ gapAhead pieces) (buffer (behindGap pieces)) := by
    rw [buffer_eq] at unmarked
    have behind := unmarked.drop 3
    rw [List.drop_tail] at behind
    exact behind.append wellFormed.unmarked
  have cut : (octets ++ buffer pieces).drop 4 =
      (octets.drop 4 ++ gapAhead pieces) ++ buffer (behindGap pieces) := by
    rw [List.drop_append_of_le_length four, List.append_assoc, ← buffer_eq]
  rw [Stream.nextMark, cut, Stream.findMark_of_unmarked passed]
  rcases wellFormed.marked with none | mark
  · have all : (octets ++ buffer pieces).length = (octets ++ gapAhead pieces).length := by
      rw [buffer_eq pieces, none, show buffer [] = [] from rfl, List.append_nil]
    rw [none]
    exact all
  · rw [Stream.findMark_of_mark mark]
    simp only [List.length_append, List.length_drop]
    omega

theorem extent_damaged (damaged : Stream.IsDamaged (octets ++ buffer pieces)) (offset : Nat) :
    ∃ e, Stream.extent offset (octets ++ buffer pieces) =
      .error ((octets ++ gapAhead pieces).length, e) := by
  obtain ⟨e, found⟩ := Stream.extent_of_isDamaged damaged offset
  refine ⟨e, ?_⟩
  rw [found]
  split
  next short =>
    -- Another mark behind the gap would leave room for an indicator.
    rcases wellFormed.marked with none | mark
    · rw [buffer_eq pieces, none, show buffer [] = [] from rfl, List.append_nil]
    · have four : 4 ≤ octets.length := marked.length_le
      have again : 4 ≤ (buffer (behindGap pieces)).length := mark.length_le
      rw [buffer_eq pieces, List.length_append, List.length_append] at short
      omega
  next => rw [nextMark_damaged marked unmarked wellFormed]

theorem next_damaged (damaged : Stream.IsDamaged (octets ++ buffer pieces)) (position : Nat) :
    ∃ e, Stream.next resolver ⟨position, octets ++ buffer pieces⟩ =
      (some ⟨.error e, some (octets ++ gapAhead pieces)⟩,
        ⟨position + (octets ++ gapAhead pieces).length, buffer (behindGap pieces)⟩) := by
  obtain ⟨e, found⟩ := extent_damaged marked unmarked wellFormed damaged position
  refine ⟨e, ?_⟩
  rw [Stream.next_of_mark resolver (marked.trans (List.prefix_append _ _)), Stream.take]
  simp only [found, Stream.skip]
  have split : octets ++ buffer pieces = (octets ++ gapAhead pieces) ++ buffer (behindGap pieces) := by
    rw [List.append_assoc, ← buffer_eq]
  rw [split, List.take_left, List.drop_left]

end

/-! ## Framed pieces -/

theorem next_intact {octets behind : Octets} {bulletin : Bulletin} (framed : Stream.IsFramed octets)
    (decoded : Bulletin.decode resolver octets = .ok bulletin) (position : Nat) :
    Stream.next resolver ⟨position, octets ++ behind⟩ =
      (some ⟨.ok bulletin, none⟩, ⟨position + octets.length, behind⟩) := by
  have marked := (mark_of_decode decoded).trans (List.prefix_append octets behind)
  rw [Stream.next_of_mark resolver marked, Stream.take]
  simp only [Stream.extent_of_isFramed framed, List.take_left, decoded, Stream.skip, List.drop_left]

theorem next_refused {octets behind : Octets} {e : Error} (framed : Stream.IsFramed octets)
    (marked : Indicator.mark <+: octets) (failed : Bulletin.decode resolver octets = .error e)
    (kind : e.kind ≠ .allocation) (position : Nat) :
    Stream.next resolver ⟨position, octets ++ behind⟩ =
      (some ⟨.error e, some octets⟩, ⟨position + octets.length, behind⟩) := by
  rw [Stream.next_of_mark resolver (marked.trans (List.prefix_append octets behind)), Stream.take]
  simp only [Stream.extent_of_isFramed framed, List.take_left, failed, if_neg kind, Stream.skip,
    List.drop_left]

/-! ## All pieces -/

theorem WellFormed.exists_yields (wellFormed : WellFormed resolver pieces) (position : Nat) :
    ∃ items, Stream.Yields resolver ⟨position, buffer pieces⟩ items ∧
      Reports resolver pieces items := by
  induction wellFormed generalizing position with
  | nil => exact ⟨[], .done rfl, .nil⟩
  | @intact octets bulletin pieces framed decoded _ ih =>
      obtain ⟨items, yields, reports⟩ := ih (position + octets.length)
      exact ⟨_, .item (next_intact framed decoded position) yields, .intact decoded reports⟩
  | @refused octets e pieces marked framed failed kind _ ih =>
      obtain ⟨items, yields, reports⟩ := ih (position + octets.length)
      exact ⟨_, .item (next_refused framed marked failed kind position) yields,
        .refused failed reports⟩
  | @damaged octets pieces marked damaged unmarked more ih =>
      obtain ⟨e, one⟩ := next_damaged marked unmarked more damaged position
      obtain ⟨items, yields, reports⟩ := ih (position + octets.length)
      have behind := yields.congr (more.next_behindGap (position + octets.length))
      rw [Nat.add_assoc, ← List.length_append] at behind
      exact ⟨_, .item one behind, .damaged reports⟩
  | @gap octets pieces unmarked _ ih =>
      obtain ⟨items, yields, reports⟩ := ih (position + octets.length)
      have passed := Stream.next_of_unmarked resolver position unmarked
      exact ⟨items, yields.congr passed.symm, .gap reports⟩

/-- Nothing that a damaged piece says of its length makes the stream miss what is behind it. -/
theorem WellFormed.recovers (wellFormed : WellFormed resolver pieces) :
    ∃ items, Reports resolver pieces items ∧
      ∀ items', Stream.Yields resolver (.ofOctets (buffer pieces)) items' ↔ items' = items := by
  obtain ⟨items, yields, reports⟩ := wellFormed.exists_yields 0
  refine ⟨items, reports, fun items' => ⟨yields.unique, ?_⟩⟩
  rintro rfl
  exact yields

def markedReport : Octets := [66, 85, 70, 82, 0, 0, 59, 4, 0, 0, 22, 0, 0, 0, 0, 0, 0, 128, 0, 0, 0, 13,
  0, 0, 0, 0, 0, 0, 0, 0, 0, 0, 8, 0, 66, 85, 70, 82, 0, 0, 9, 0, 0, 1, 128, 1, 15, 0, 0, 8, 0, 65,
  109, 115, 0, 55, 55, 55, 55]

def unknownEdition : Octets := [66, 85, 70, 82, 0, 0, 12, 5, 55, 55, 55, 55]

/-- The first damaged piece is longer than the buffer by its own account, the last one is cut off. -/
def stationPieces : List Piece :=
  [.gap [13, 10], .damaged [66, 85, 70, 82, 0, 0, 200, 4], .gap [66], .intact markedReport,
    .refused unknownEdition, .damaged [66, 85, 70, 82], .gap [85, 70]]

theorem recovers_stationPieces :
    ∃ items, Reports .station stationPieces items ∧
      ∀ items', Stream.Yields .station (.ofOctets (buffer stationPieces)) items' ↔
        items' = items := by
  have decodes : ∃ bulletin, Bulletin.decode .station markedReport = .ok bulletin := by
    have isOk : (Bulletin.decode .station markedReport).isOk := by decide +kernel
    cases decoded : Bulletin.decode .station markedReport with
    | ok bulletin => exact ⟨bulletin, rfl⟩
    | error e =>
        rw [decoded] at isOk
        cases isOk
  have refuses : Bulletin.decode .station unknownEdition = .error (.unsupportedEdition 5) := by
    decide +kernel
  obtain ⟨bulletin, decoded⟩ := decodes
  have cut : WellFormed .station [.damaged [66, 85, 70, 82], .gap [85, 70]] :=
    .damaged (by decide) (by unfold Stream.IsDamaged; decide) (by unfold Unmarked; decide)
      (.gap (by unfold Unmarked; decide) .nil)
  have framed : WellFormed .station (.intact markedReport :: .refused unknownEdition :: _) :=
    .intact ⟨by decide, by decide, by decide⟩ decoded
      (.refused (by decide) ⟨by decide, by decide, by decide⟩ refuses (by decide) cut)
  exact WellFormed.recovers (.gap (by unfold Unmarked; decide)
    (.damaged (by decide) (by unfold Stream.IsDamaged; decide) (by unfold Unmarked; decide)
      (.gap (by unfold Unmarked; decide) framed)))

end Piece

end Bufr
