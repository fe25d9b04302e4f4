import Bufr.Proofs.Coding.Requests
import Bufr.Proofs.Coding.WithBitmaps

/-!
A walk over a template makes requests of its bitmap as it goes on, and what they are told is what its
actions attach their values to. Together with the answers themselves: a bitmap means the same variables
whatever comes behind it.
-/

namespace Bufr

open Bitmap (Request Answer Session Opened Selects Keeps Accepted inTurn eligible entries answer after)
open Situation (Log Step)

/-! ## Requests of a walk -/

def Bitmap.attached (requests : List Request) : List Nat :=
  (List.range requests.length).filterMap fun place =>
    requests[place]?.bind fun request => (answer (requests.take place) request).target?

def Action.target? (action : Action) : Option Nat :=
  match action.task with
  | .attach target .. => some target
  | _ => none

namespace Situation

variable {resolver : Resolver} {σ σ' : Situation} {event : Event} {events : List Event} {task : Task}
  {actions : List Action} {requests : List Request} {request : Request} {targets : List Nat}

def session (σ : Situation) : Session := ⟨σ.bitmap, σ.referable, σ.codes.size⟩

structure Issued (requests : List Request) (σ : Situation) (targets : List Nat) : Prop where
  accepted : Accepted requests
  reaches : after requests = σ.session
  attached : Bitmap.attached requests = targets

theorem attached_concat : Bitmap.attached (requests ++ [request]) =
    Bitmap.attached requests ++ (answer requests request).target?.toList := by
  unfold Bitmap.attached
  rw [List.length_append, List.length_singleton, List.range_succ, List.filterMap_append]
  congr 1
  · refine List.filterMap_congr fun place mem => ?_
    have inside := List.mem_range.1 mem
    rw [List.getElem?_append_left inside, List.take_append_of_le_length inside.le]
  · cases told : (answer requests request).target? <;> simp [told]

theorem issued_start : Issued [] start [] := ⟨nofun, rfl, rfl⟩

theorem Issued.concat {told : Answer} (issued : Issued requests σ targets)
    (performed : σ.session.perform request = (told, σ'.session)) (accepted : ∀ e, told ≠ .refused e) :
    Issued (requests ++ [request]) σ' (targets ++ told.target?.toList) := by
  have answered : answer requests request = told := by rw [answer, issued.reaches, performed]
  refine ⟨Bitmap.accepted_concat_iff.2 ⟨issued.accepted, answered ▸ accepted⟩, ?_, ?_⟩
  · rw [Bitmap.after_concat, issued.reaches, performed]
  · rw [attached_concat, issued.attached, answered]

theorem Issued.silently (issued : Issued requests σ targets) (request : Request)
    (performed : σ.session.perform request = (.done, σ'.session)) :
    Issued (requests ++ [request]) σ' targets := by
  simpa [Answer.target?] using issued.concat performed nofun

theorem Issued.withModifiers (issued : Issued requests σ targets) (modifiers : Modifiers) :
    Issued requests { σ with modifiers } targets :=
  ⟨issued.accepted, issued.reaches, issued.attached⟩

theorem Issued.emit (issued : Issued requests σ targets) (code : Descriptor) :
    Issued (requests ++ [.emit code.isReferable]) (σ.emit code) targets := by
  refine issued.silently _ ?_
  simp [Session.perform, session, Situation.emit]

theorem Issued.settle (issued : Issued requests σ targets) (settled : σ.settle = .ok σ') :
    Issued (requests ++ [.settle]) σ' targets := by
  obtain ⟨bitmap, bitmapOk, rfl⟩ := settle_ok_iff.1 settled
  have performed : σ.session.perform .settle =
      (if σ.bitmap.isCollecting then .completed bitmap.targets else .done,
        { σ with bitmap }.session) := by
    simp only [Session.perform, session, bitmapOk]
    rfl
  have accepted (e : Error) :
      (if σ.bitmap.isCollecting then Answer.completed bitmap.targets else .done) ≠ .refused e := by
    split <;> exact Answer.noConfusion
  have next := issued.concat performed accepted
  split at next <;> simpa [Answer.target?] using next

theorem Issued.nextTarget {target : Nat} {code : Descriptor} (issued : Issued requests σ targets)
    (found : σ.nextTarget = .ok (target, code, σ')) :
    Issued (requests ++ [.target]) σ' (targets ++ [target]) := by
  obtain ⟨bitmap, bitmapOk, _, rfl⟩ := nextTarget_ok_iff.1 found
  have performed : σ.session.perform .target = (.target target, { σ with bitmap }.session) := by
    simp only [Session.perform, session, bitmapOk]
  exact issued.concat performed fun _ => Answer.noConfusion

theorem Issued.step (issued : Issued requests σ targets) (step : Step resolver σ event task σ')
    (data : task.Data) : ∃ requests, Issued requests (σ'.record task data)
      (targets ++ (Action.target? ⟨task, data⟩).toList) := by
  have unattached {requests : List Request} {σ : Situation} (issued : Issued requests σ targets) :
      ∃ requests, Issued requests σ (targets ++ []) := ⟨requests, by rwa [List.append_nil]⟩
  cases step with
  | define | modify => exact unattached (issued.withModifiers _)
  | entry => exact unattached (issued.silently (.entry data) rfl)
  | unlisted begins | skip begins | value begins =>
      exact unattached (((issued.settle begins.settled).withModifiers _).emit _)
  | quality begins _ _ _ _ found =>
      exact ⟨_, ((issued.settle begins.settled).withModifiers _).nextTarget found⟩
  | count => exact unattached (issued.emit _)
  | insert _ settled => exact unattached ((issued.settle settled).emit _)
  | @opens _ _ _ kind _ settled =>
      exact unattached ((issued.settle settled).silently (.start kind) rfl)
  | marker _ settled _ found =>
      exact ⟨_, ((issued.settle settled).nextTarget found).withModifiers _⟩
  | keep => exact unattached (issued.silently .keep rfl)
  | reuse _ kept =>
      refine unattached (issued.silently .reuse ?_)
      simp only [Session.perform, session, kept]
      rfl
  | forget => exact unattached (issued.silently .forget rfl)
  | cancel _ settled =>
      exact unattached ((issued.settle settled).silently .cancel rfl)

theorem issued_of_log (log : Log resolver σ events actions σ') (issued : Issued requests σ targets) :
    ∃ requests, Issued requests σ' (targets ++ actions.filterMap Action.target?) := by
  induction log generalizing requests targets with
  | nil => exact ⟨requests, by simpa using issued⟩
  | @cons _ _ _ _ _ task actions data taskOk _ ih =>
      obtain ⟨_, first⟩ := issued.step (step_of_task taskOk) data
      obtain ⟨all, rest⟩ := ih first
      have split : (⟨task, data⟩ :: actions).filterMap Action.target? =
          (Action.target? ⟨task, data⟩).toList ++ actions.filterMap Action.target? := by
        cases target : Action.target? ⟨task, data⟩ <;> simp [target]
      rw [split, ← List.append_assoc]
      exact ⟨all, rest⟩

end Situation

namespace Bitmap

/-! ## One meaning -/

def GivesInTurn (requests : List Request) (targets : List Nat) : Prop :=
  ∀ behind, (∀ request ∈ behind, request.LeavesTargets) →
    answer (requests ++ behind) .target = inTurn targets (behind.count .target)

/-- What is said about bitmaps behind the requests depends on their own part of the requests only. -/
structure KeepsMeaning (requests : List Request) : Prop where
  completed : ∀ front between, Opened requests front between →
    (entries between).length ≤ (eligible front).length →
    ∃ targets, Selects (eligible front) (entries between) targets ∧
      answer requests .settle = .completed targets ∧ GivesInTurn (requests ++ [.settle]) targets
  tooLong : ∀ front between, Opened requests front between →
    (eligible front).length < (entries between).length →
    answer requests .settle =
      .refused (.bitmapTooLong (entries between).length (eligible front).length)
  opened : Accepted requests → ∀ targets, answer requests .settle = .completed targets →
    ∃ front between, Opened requests front between ∧
      Selects (eligible front) (entries between) targets
  reused : ∀ targets, Keeps requests targets →
    answer requests .reuse = .done ∧ GivesInTurn (requests ++ [.reuse]) targets
  unkept : (∀ targets, ¬Keeps requests targets) →
    answer requests .reuse = .refused .noKeptBitmap ∧ after (requests ++ [.reuse]) = after requests
  refusals : ∀ request e, answer requests request = .refused e → e.kind = .consistency

theorem kind_of_refused {s : Session} {request : Request} {e : Error}
    (refused : (s.perform request).1 = .refused e) : e.kind = .consistency := by
  cases request with
  | emit | start | entry | keep | forget | cancel => cases refused
  | settle =>
      cases settleStep s with
      | completed performed | closed _ performed =>
          rw [performed] at refused
          cases refused
      | tooLong performed =>
          rw [performed] at refused
          cases refused
          rfl
  | reuse =>
      simp only [Session.perform, reuse] at refused
      cases kept : s.bitmap.kept <;> rw [kept] at refused <;> cases refused
      rfl
  | target =>
      simp only [Session.perform, nextTarget] at refused
      split at refused
      next found => cases refused
      next found =>
        cases refused
        split at found
        · split at found <;> cases found
          rfl
        · cases found
          rfl

theorem keepsMeaning (requests : List Request) : KeepsMeaning requests where
  completed := by
    rintro front between ⟨kind, rfl, leaves⟩ enough
    obtain ⟨targets, selects, completed, phase⟩ := settle_of_leavesOpen leaves enough
    exact ⟨targets, selects, completed, fun _ => answer_target phase⟩
  tooLong := by
    rintro front between ⟨kind, rfl, leaves⟩ short
    exact settle_refused leaves short
  opened accepted _ completed := opened_of_completed accepted completed
  reused _ keeps := ⟨(reuse_of_keeps keeps).1, fun _ => answer_target (reuse_of_keeps keeps).2⟩
  unkept := reuse_refused
  refusals _ _ refused := kind_of_refused refused

end Bitmap

/-- Bitmaps keep their meaning, and walks attach values to just what their requests were told. -/
theorem bitmaps_keep_meaning (resolver : Resolver) :
    (∀ requests, Bitmap.KeepsMeaning requests) ∧
      ∀ events actions σ, Log resolver .start events actions σ →
        ∃ requests, σ.Issued requests (actions.filterMap Action.target?) :=
  ⟨Bitmap.keepsMeaning, fun _ _ _ log => Situation.issued_of_log log Situation.issued_start⟩

def growingRequests : List Request :=
  [.emit true, .emit true] ++ .start .substituted :: [.keep, .entry true, .emit true, .entry false]

theorem bitmaps_keep_meaning_amendedReport :
    (∃ events σ requests, Log .station .start events amendedActions σ ∧
      σ.Issued requests [1, 0]) ∧
      answer (growingRequests ++ [.settle] ++ [.target, .emit true]) .target = .target 0 := by
  obtain ⟨meaning, walks⟩ := bitmaps_keep_meaning .station
  constructor
  · obtain ⟨events, σ, _, _, along, _⟩ := restores_amendedReport
    obtain ⟨requests, issued⟩ := walks events _ σ along.log
    exact ⟨events, σ, requests, along.log, issued⟩
  · have opened : Opened growingRequests [.emit true, .emit true]
        [.keep, .entry true, .emit true, .entry false] := ⟨_, rfl, by simp [Request.LeavesOpen]⟩
    obtain ⟨targets, _, completed, inTurn⟩ := (meaning growingRequests).completed _ _ opened (by decide)
    cases completed
    exact inTurn _ (by simp [Request.LeavesTargets])

end Bufr
