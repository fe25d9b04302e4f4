import Bufr.Proofs.Coding.Rounds
import Bufr.Proofs.Coding.Writing

/-!
Whatever the operators and the entries, bitmaps refer to variables that are there and that can be
referred to, so no lookup behind a bitmap goes astray. The situation keeps to this step by step, and
both coders are in a situation all along.
-/

namespace Bufr

open Situation (Log)

namespace Situation

variable {resolver : Resolver} {σ σ' : Situation} {event : Event} {events : List Event}
  {task : Task} {actions : List Action}

structure RefersBack (σ : Situation) : Prop extends σ.Regular where
  eligible : ∀ i ∈ σ.referable, ∃ code, σ.codes[i]? = some code ∧ code.isReferable
  selected : ∀ targets used, σ.bitmap.phase = .selected targets used → ∀ i ∈ targets, i ∈ σ.referable
  reusable : ∀ targets, σ.bitmap.kept = some targets → ∀ i ∈ targets, i ∈ σ.referable

structure InRange (σ : Situation) : Prop where
  candidate : ∀ available entries first, σ.bitmap.phase = .collecting available entries →
    Bitmap.firstCandidate available entries.size = .ok first →
    ∀ j < entries.size, ∃ i, σ.referable[first + j]? = some i ∧ i < σ.codes.size
  window : ∀ entries first, Bitmap.firstCandidate σ.referable.size entries = .ok first →
    first ≤ σ.referable.size ∧ ∀ i ∈ σ.referable.extract first σ.referable.size, i < σ.codes.size
  target : ∀ targets used, σ.bitmap.phase = .selected targets used → targets ≠ #[] →
    ∃ i, targets[used % targets.size]? = some i ∧ i < σ.codes.size

theorem RefersBack.inRange (refers : σ.RefersBack) : σ.InRange where
  candidate available entries first phase found j inside := by
    have := Bitmap.firstCandidate_ok_iff.1 found
    have := refers.available_le available entries phase
    have short : first + j < σ.referable.size := by omega
    exact ⟨_, Array.getElem?_eq_getElem short, refers.bounded.referable _ (Array.getElem_mem short)⟩
  window entries first found := by
    have := Bitmap.firstCandidate_ok_iff.1 found
    refine ⟨by omega, fun i mem => refers.bounded.referable i ?_⟩
    obtain ⟨j, inside, rfl⟩ := Array.mem_extract_iff_getElem.1 mem
    exact Array.getElem_mem _
  target targets used phase something := by
    have positive : 0 < targets.size := Array.size_pos_iff.2 something
    have inside := Nat.mod_lt used positive
    exact ⟨_, Array.getElem?_eq_getElem inside,
      refers.bounded.targets targets used phase _ (Array.getElem_mem inside)⟩

/-! ## Steps -/

theorem refersBack_start : start.RefersBack where
  toRegular := regular_start
  eligible := by simp [start]
  selected := nofun
  reusable := nofun

theorem RefersBack.withModifiers (refers : σ.RefersBack) (modifiers : Modifiers) :
    { σ with modifiers }.RefersBack :=
  ⟨refers.toRegular.withModifiers modifiers, refers.eligible, refers.selected, refers.reusable⟩

theorem RefersBack.emit (refers : σ.RefersBack) (code : Descriptor) : (σ.emit code).RefersBack := by
  have grown (i : Nat) (mem : i ∈ σ.referable) : i ∈ (σ.emit code).referable := by
    simp only [Situation.emit]
    split
    · exact Array.mem_push_of_mem _ mem
    · exact mem
  have known (i : Nat) (mem : i ∈ σ.referable) :
      ∃ found, (σ.emit code).codes[i]? = some found ∧ found.isReferable := by
    obtain ⟨found, here, referable⟩ := refers.eligible i mem
    obtain ⟨inside, -⟩ := Array.getElem?_eq_some_iff.1 here
    refine ⟨found, ?_, referable⟩
    rw [Situation.emit, Array.getElem?_push_lt inside, ← here, Array.getElem?_eq_getElem inside]
  refine ⟨refers.toRegular.emit code, fun i mem => ?_, ?_, ?_⟩
  · simp only [Situation.emit] at mem
    split at mem
    next referable =>
      rcases Array.mem_push.1 mem with mem | rfl
      · exact known i mem
      · exact ⟨code, Array.getElem?_push_size, referable⟩
    next => exact known i mem
  · exact fun targets used phase i mem => grown i (refers.selected targets used phase i mem)
  · exact fun targets kept i mem => grown i (refers.reusable targets kept i mem)

theorem RefersBack.refersTo (refers : σ.RefersBack) : σ.bitmap.RefersTo (· ∈ σ.referable) :=
  ⟨refers.selected, refers.reusable⟩

theorem RefersBack.withBitmap (refers : σ.RefersBack) {bitmap : Bitmap}
    (regular : { σ with bitmap }.Regular) (refersTo : bitmap.RefersTo (· ∈ σ.referable)) :
    { σ with bitmap }.RefersBack :=
  ⟨regular, refers.eligible, refersTo.selected, refersTo.kept⟩

theorem RefersBack.settle (refers : σ.RefersBack) (settled : σ.settle = .ok σ') :
    σ'.RefersBack := by
  have regular := refers.toRegular.settle settled
  obtain ⟨bitmap, bitmapOk, rfl⟩ := settle_ok_iff.1 settled
  exact refers.withBitmap regular (refers.refersTo.settle (fun _ mem => mem) bitmapOk)

theorem RefersBack.nextTarget (refers : σ.RefersBack) {target : Nat} {targetCode : Descriptor}
    (found : σ.nextTarget = .ok (target, targetCode, σ')) : σ'.RefersBack := by
  have regular := refers.toRegular.nextTarget found
  obtain ⟨bitmap, bitmapOk, _, rfl⟩ := nextTarget_ok_iff.1 found
  exact refers.withBitmap regular (refers.refersTo.nextTarget bitmapOk)

theorem RefersBack.step (refers : σ.RefersBack) (step : Step resolver σ event task σ') :
    σ'.RefersBack := by
  have regular := refers.toRegular.step step
  cases step with
  | define | entry => exact refers
  | unlisted begins | skip begins | value begins =>
      have settled := refers.settle begins.settled
      exact (settled.withModifiers _).emit _
  | quality begins _ _ _ _ found =>
      have settled := refers.settle begins.settled
      exact (settled.withModifiers _).nextTarget found
  | count => exact refers.emit _
  | modify => exact refers.withModifiers _
  | insert _ settled => exact (refers.settle settled).emit _
  | opens _ settled =>
      have settled := refers.settle settled
      exact ⟨regular, settled.eligible, nofun, settled.reusable⟩
  | marker _ settled _ found =>
      exact ((refers.settle settled).nextTarget found).withModifiers _
  | keep => exact ⟨regular, refers.eligible, refers.selected, refers.reusable⟩
  | reuse _ kept => exact refers.withBitmap regular (refers.refersTo.reuse kept)
  | forget => exact ⟨regular, refers.eligible, refers.selected, nofun⟩
  | cancel _ settled => exact ⟨regular, (refers.settle settled).eligible, nofun, nofun⟩

theorem RefersBack.record (refers : σ.RefersBack) (data : task.Data) :
    (σ.record task data).RefersBack := by
  have regular := refers.toRegular.record data
  cases task with
  | entry => exact refers.withBitmap regular (refers.refersTo.pushEntry data)
  | define => exact refers.withModifiers _
  | _ => exact refers

theorem RefersBack.log (refers : σ.RefersBack) (log : Log resolver σ events actions σ') :
    σ'.RefersBack := by
  induction log with
  | nil => exact refers
  | cons data taskOk _ ih => exact ih ((refers.step (step_of_task taskOk)).record data)

end Situation

/-! ## Coders -/

def Decoder.situation (s : Decoder) : Situation :=
  ⟨s.modifiers, s.bitmap, s.subset.codes, s.referable⟩

def Encoder.situation (subset : Subset) (s : Encoder) : Situation :=
  ⟨s.modifiers, s.bitmap, subset.codes.extract 0 s.taken, s.referable⟩

variable {resolver : Resolver} {template : Template}

theorem Decoder.situation_start (reader : Bits.Reader) : (start reader).situation = .start := by
  rw [situation, start, show Subset.empty.codes = #[] from Array.map_empty]
  rfl

theorem Decoder.situation_settle {s s' : Decoder} (settled : s.settle = .ok s') :
    s.situation.settle = .ok s'.situation := by
  have same : s = of s.reader s.situation s.subset := rfl
  rw [same, settle_of] at settled
  obtain ⟨σ', settledSituation, same'⟩ := bind_eq_ok.1 settled
  cases same'
  obtain ⟨bitmap, _, rfl⟩ := Situation.settle_ok_iff.1 settledSituation
  exact settledSituation

theorem Decoder.follows_of_answers {event : Event} {s s' : Decoder}
    (answered : (coder resolver).Answers event s s') :
    Follows (s.situation.task resolver event) s.reader s.subset s' :=
  (@answers_iff s.reader s.situation s.subset s' resolver rfl event).1 answered

theorem Decoder.refersBack_of_answers {event : Event} {s s' : Decoder}
    (refers : s.situation.RefersBack) (answered : (coder resolver).Answers event s s') :
    s'.situation.RefersBack := by
  obtain ⟨task, σ', data, _, r, taskOk, -, -, rfl⟩ := follows_of_answers answered
  have same : (of r (σ'.record task data) (s.subset.record ⟨task, data⟩)).situation =
      σ'.record task data := by
    rw [situation, ← codes_follow rfl taskOk data]
  rw [same]
  exact (refers.step (Situation.step_of_task taskOk)).record data

theorem Decoder.refersBack_of_reaches {reader : Bits.Reader} {walk : Walk} {s : Decoder}
    (reached : (coder resolver).Reaches resolver (.start template, .start reader) (walk, s)) :
    s.situation.RefersBack := by
  refine Coder.invariant_of_reaches (P := fun _ s => s.situation.RefersBack) ?_ ?_ reached
  · rw [situation_start]
    exact Situation.refersBack_start
  · intro _ s₁ _ s₂ _ refers stepped
    rcases Coder.answers_of_step stepped with rfl | ⟨event, answered⟩
    · exact refers
    · exact refersBack_of_answers refers answered

theorem Encoder.refersBack_of_reaches {subset : Subset} {writer : Bits.Writer} {walk : Walk}
    {s : Encoder}
    (reached : (coder resolver subset).Reaches resolver (.start template, .start writer) (walk, s)) :
    s.taken ≤ subset.size ∧ (s.situation subset).RefersBack := by
  obtain ⟨events, answers⟩ := Coder.events_of_reaches reached
  obtain ⟨actions, x, σ, supply, planned, log, -, -, same, rfl⟩ :=
    log_of_answersAll matches_start answers
  have situation : (of (writer.push x) σ supply planned).situation subset = σ := by
    rw [situation, ← same.codes]
  rw [situation]
  exact ⟨same.taken_le, Situation.refersBack_start.log log⟩

theorem Encoder.situation_settle {subset : Subset} {s s' : Encoder} (settled : s.settle = .ok s') :
    s'.taken = s.taken ∧ (s.situation subset).settle = .ok (s'.situation subset) := by
  unfold settle at settled
  split at settled
  · cases settled
  · obtain ⟨bitmap, bitmapOk, same⟩ := bind_eq_ok.1 settled
    cases same
    exact ⟨rfl, Situation.settle_ok_iff.2 ⟨bitmap, bitmapOk, rfl⟩⟩

/-- Between the steps of a subset, and where an open bitmap has just ended, no reference is astray. -/
structure Template.RefersBack (resolver : Resolver) (template : Template) : Prop where
  decoding : ∀ reader walk s s', (Decoder.coder resolver).Reaches resolver
      (.start template, .start reader) (walk, s) → s' = s ∨ s.settle = .ok s' →
    s'.situation.RefersBack ∧ s'.situation.InRange
  encoding : ∀ subset writer walk s s', (Encoder.coder resolver subset).Reaches resolver
      (.start template, .start writer) (walk, s) → s' = s ∨ s.settle = .ok s' →
    s'.taken ≤ subset.size ∧ (s'.situation subset).RefersBack ∧ (s'.situation subset).InRange

theorem Template.refersBack (resolver : Resolver) (template : Template) :
    template.RefersBack resolver where
  decoding reader walk s s' reached now := by
    have refers := Decoder.refersBack_of_reaches reached
    have refers' : s'.situation.RefersBack := by
      rcases now with rfl | settled
      · exact refers
      · exact refers.settle (Decoder.situation_settle settled)
    exact ⟨refers', refers'.inRange⟩
  encoding subset writer walk s s' reached now := by
    obtain ⟨inside, refers⟩ := Encoder.refersBack_of_reaches reached
    have both : s'.taken ≤ subset.size ∧ (s'.situation subset).RefersBack := by
      rcases now with rfl | settled
      · exact ⟨inside, refers⟩
      · obtain ⟨taken, settledSituation⟩ := Encoder.situation_settle settled
        exact ⟨taken ▸ inside, refers.settle settledSituation⟩
    exact ⟨both.1, both.2, both.2.inRange⟩

end Bufr
