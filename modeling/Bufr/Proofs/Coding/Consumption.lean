import Bufr.Proofs.Coding.Operators
import Bufr.Proofs.Coding.Recording
import Bufr.Proofs.Coding.Writing

/-!
What becomes of the values that a subset supplies. Where an encoder comes to the end of the template,
every variable of its own was coded by one action, in order, and none may be left over. Reference
values are coded in order as well, but those behind the last one that the template asks for are left
alone.
-/

namespace Bufr

open Situation (Log)

namespace Action

def Codes : Action → Variable → Prop
  | ⟨.skip code, _⟩, v => v.code = code ∧ v.value = .missing
  | ⟨.count code _ passes, _⟩, v => v.code = code ∧ v.count = .ok passes
  | ⟨.unlisted code _, value⟩, v => v.code = code ∧ v.value = value
  | ⟨.value code _ _, data⟩, v => v.code = code ∧ (v.value, v.associated) = data
  | _, _ => False

def emits (action : Action) : Bool := action.task.emitted?.isSome

end Action

section

variable {resolver : Resolver} {template : Template} {subset : Subset} {supply supply' : Supply}
  {action : Action} {actions : List Action}

theorem Supplies.uses (supplied : Supplies resolver subset supply action supply') :
    (∃ coded, subset.vars.toList.drop supply.taken = coded ++ subset.vars.toList.drop supply'.taken ∧
      List.Forall₂ Action.Codes ([action].filter Action.emits) coded) ∧
    subset.references.toList.drop supply.defined =
      action.reference?.toList ++ subset.references.toList.drop supply'.defined := by
  cases supplied with
  | define found => exact ⟨⟨[], rfl, .nil⟩, drop_of_getElem? found⟩
  | @skip _ v _ found named missing =>
      exact ⟨⟨[v], drop_of_getElem? found, .cons ⟨named, missing⟩ .nil⟩, rfl⟩
  | @count _ _ _ v found named counted =>
      exact ⟨⟨[v], drop_of_getElem? found, .cons ⟨named, counted⟩ .nil⟩, rfl⟩
  | @unlisted _ _ v _ found named =>
      exact ⟨⟨[v], drop_of_getElem? found, .cons ⟨named, rfl⟩ .nil⟩, rfl⟩
  | @value _ _ _ v _ found named =>
      exact ⟨⟨[v], drop_of_getElem? found, .cons ⟨named, rfl⟩ .nil⟩, rfl⟩
  | entry | attach | absent | opens | reuses | cancels | other => exact ⟨⟨[], rfl, .nil⟩, rfl⟩

theorem SuppliesAll.uses (supplied : SuppliesAll resolver subset supply actions supply') :
    (∃ coded, subset.vars.toList.drop supply.taken = coded ++ subset.vars.toList.drop supply'.taken ∧
      List.Forall₂ Action.Codes (actions.filter Action.emits) coded) ∧
    subset.references.toList.drop supply.defined =
      actions.filterMap Action.reference? ++ subset.references.toList.drop supply'.defined := by
  induction supplied with
  | nil => exact ⟨⟨[], rfl, .nil⟩, rfl⟩
  | @cons _ _ _ action actions first _ ih =>
      obtain ⟨⟨coded, left, codes⟩, references⟩ := first.uses
      obtain ⟨⟨coded', left', codes'⟩, references'⟩ := ih
      refine ⟨⟨coded ++ coded', by rw [left, left', List.append_assoc], ?_⟩, ?_⟩
      · rw [← List.singleton_append, List.filter_append]
        exact List.rel_append codes codes'
      · rw [references, references', ← List.append_assoc, List.filterMap_cons]
        cases action.reference? <;> rfl

/-- The actions over the template that write the bits, one for each variable of the subset in turn.
The reference values that they write stand to those of the subset as `covers` says. -/
def Subset.IsCodedBy (covers : List (Descriptor × Int) → List (Descriptor × Int) → Prop)
    (resolver : Resolver) (template : Template) (subset : Subset) (x : Bits) : Prop :=
  ∃ actions, Situation.Logged resolver template actions ∧ Bits.Spelled Action.Writes actions x ∧
    List.Forall₂ Action.Codes (actions.filter Action.emits) subset.vars.toList ∧
    covers (actions.filterMap Action.reference?) subset.references.toList

theorem Writing.isCodedBy {x : Bits} (writing : Writing resolver template subset actions x) :
    subset.IsCodedBy List.IsPrefix resolver template x := by
  obtain ⟨logged, spelled, defined, supplied⟩ := writing
  obtain ⟨⟨coded, all, codes⟩, references⟩ := supplied.uses
  have none : subset.vars.toList.drop subset.size = [] := List.drop_eq_nil_of_le (Nat.le_refl _)
  simp only [List.drop_zero, none, List.append_nil] at all
  exact ⟨actions, logged, spelled, all ▸ codes, _, references.symm⟩

def Subset.Outlasts (resolver : Resolver) (template : Template) (subset : Subset) (taken : Nat) :
    Prop :=
  taken < subset.size ∧ ∃ events actions σ x supply, (Walk.start template).Plays resolver events ∧
    Log resolver .start events actions σ ∧ Bits.Spelled Action.Writes actions x ∧
    SuppliesAll resolver subset ⟨0, 0, []⟩ actions supply ∧ supply.taken = taken

namespace Encoder

variable {w : Bits.Writer} {taken : Nat}

theorem kind_of_settle {s : Encoder} {e : Error} (failed : s.settle = .error e) :
    e.kind = .consistency := by
  unfold settle at failed
  split at failed
  · cases failed
    rfl
  rcases bind_eq_error_iff.1 failed with failed | ⟨_, _, impossible⟩
  · unfold Bitmap.settle at failed
    split at failed
    · split at failed
      next short =>
        cases failed
        unfold Bitmap.firstCandidate at short
        split at short <;> cases short
        rfl
      · cases failed
    · cases failed
  · cases impossible

theorem writeSubset_of_outlasts (outlasts : subset.Outlasts resolver template taken) :
    ∃ e, writeSubset resolver template subset w = .error e ∧ e.kind = .consistency := by
  obtain ⟨short, events, actions, σ, x, supply, plays, log, spelled, supplied, rfl⟩ := outlasts
  have start : Encoder.start w = of w .start ⟨0, 0, []⟩ #[] := rfl
  obtain ⟨planned, answers, same⟩ := answersAll_of_log matches_start log supplied spelled
  have ran := Coder.run_eq_ok_iff.2 ⟨events, plays, start ▸ answers⟩
  unfold writeSubset
  rw [ran, ok_bind]
  cases ended : (of (w.push x) σ supply planned).settle with
  | error e => exact ⟨e, rfl, kind_of_settle ended⟩
  | ok s =>
      obtain ⟨_, _, _, rfl⟩ := (settle_ok_iff same).1 ended
      rw [ok_bind, if_pos short]
      exact ⟨_, rfl, rfl⟩

theorem writeSubsets_append {front back : List Subset} :
    writeSubsets resolver template (front ++ back) w =
      writeSubsets resolver template front w >>= writeSubsets resolver template back := by
  induction front generalizing w with
  | nil => rfl
  | cons subset front ih =>
      rw [List.cons_append, writeSubsets, writeSubsets]
      cases writeSubset resolver template subset w with
      | error e => rfl
      | ok w => exact ih

end Encoder

theorem encodeSubsets_of_outlasts {front back : List Subset} {data : Octets} {taken : Nat}
    (encoded : encodeSubsets resolver template front = .ok data)
    (outlasts : subset.Outlasts resolver template taken) :
    ∃ e, encodeSubsets resolver template (front ++ subset :: back) = .error e ∧
      e.kind = .consistency := by
  obtain ⟨w, written, _⟩ := map_eq_ok_iff.1 encoded
  obtain ⟨e, failed, kind⟩ := Encoder.writeSubset_of_outlasts (w := w) outlasts
  refine ⟨e, ?_, kind⟩
  rw [encodeSubsets, Encoder.writeSubsets_append, written, ok_bind, Encoder.writeSubsets, failed]
  rfl

/-- What the encoder accepts is coded from the first variable to the last, and a subset with more
variables than the template asks for is refused. -/
theorem encodeSubsets_consumes (resolver : Resolver) (template : Template) (subsets : List Subset) :
    (∀ data, encodeSubsets resolver template subsets = .ok data →
      ∃ x filling, Bits.Spelled (Subset.IsCodedBy List.IsPrefix resolver template) subsets x ∧
        filling < 8 ∧ Bits.ofOctets data = x ++ List.replicate filling false) ∧
    ∀ front subset back data taken, subsets = front ++ subset :: back →
      encodeSubsets resolver template front = .ok data → subset.Outlasts resolver template taken →
      ∃ e, encodeSubsets resolver template subsets = .error e ∧ e.kind = .consistency := by
  refine ⟨fun data encoded => ?_, ?_⟩
  · obtain ⟨x, spelled, rfl⟩ := encodeSubsets_ok_iff.1 encoded
    have filled := Bits.Writer.ofOctets_finish (Bits.Writer.empty.push x)
    rw [Bits.Writer.bits_push, Bits.Writer.bits_empty, List.nil_append] at filled
    refine ⟨x, _, spelled.imp ?_, Nat.mod_lt _ (by decide), filled⟩
    rintro subset x ⟨actions, writing⟩
    exact writing.isCodedBy
  · rintro front subset back data taken rfl encoded outlasts
    exact encodeSubsets_of_outlasts encoded outlasts

end

def temperatureTemplate : Template := ⟨#[.element (.element 12 101)]⟩

def temperature : Variable := .ofValue (.element 12 101) (.decimal 27315 (-2))

theorem outlasts_temperatures :
    Subset.Outlasts .station temperatureTemplate ⟨#[temperature, temperature], #[]⟩ 1 := by
  let field : Field := ⟨.element 12 101, 16, 2, 0, false⟩
  have writes : field.WritesBoth 0 (temperature.value, none) (Bits.ofNat 16 27315) :=
    ⟨[], _, rfl, rfl, by decide, some 27315, by decide, by simp [Bits.Fits, Bits.missing, field], rfl⟩
  exact ⟨by decide, [.element (.element 12 101)],
    [⟨.value _ field 0, (temperature.value, none)⟩], _, _, _, .element rfl (.done rfl), .cons _ rfl .nil,
    .cons writes .nil, .cons (.value rfl rfl rfl) .nil, rfl⟩

theorem encodeSubsets_consumes_temperatures :
    (∃ x filling, Bits.Spelled (Subset.IsCodedBy List.IsPrefix .station temperatureTemplate)
        [⟨#[temperature], #[]⟩] x ∧ filling < 8 ∧
        Bits.ofOctets [0x6a, 0xb3] = x ++ List.replicate filling false) ∧
      ∃ e, encodeSubsets .station temperatureTemplate
          [⟨#[temperature], #[]⟩, ⟨#[temperature, temperature], #[]⟩] = .error e ∧
        e.kind = .consistency := by
  have encoded : encodeSubsets .station temperatureTemplate [⟨#[temperature], #[]⟩] =
      .ok [0x6a, 0xb3] := by decide +kernel
  exact ⟨(encodeSubsets_consumes ..).1 _ encoded,
    (encodeSubsets_consumes ..).2 [_] _ [] _ 1 rfl encoded outlasts_temperatures⟩

/-! ## Reference values left over -/

theorem reference?_of_temperature {actions : List Action}
    (logged : Situation.Logged .station temperatureTemplate actions) :
    actions.filterMap Action.reference? = [] := by
  obtain ⟨events, _, _, plays, log, _⟩ := logged
  have next : (Walk.start temperatureTemplate).next =
      some (.element (.element 12 101), ⟨temperatureTemplate, 1, []⟩) := rfl
  obtain ⟨_, rfl, ended⟩ := (Walk.plays_element_iff next).1 plays
  cases (Walk.plays_done_iff rfl).1 ended
  obtain _ | ⟨_, placed, log⟩ := log
  cases placed
  cases log
  rfl

/-- A subset is accepted with a reference value that no operator asks for. -/
theorem not_always_consumed :
    ¬∀ (resolver : Resolver) (template : Template) (subsets : List Subset) (data : Octets),
      encodeSubsets resolver template subsets = .ok data →
        ∃ x filling, Bits.Spelled (Subset.IsCodedBy Eq resolver template) subsets x ∧
          filling < 8 ∧ Bits.ofOctets data = x ++ List.replicate filling false := by
  intro claimed
  have encoded : encodeSubsets .station temperatureTemplate
      [⟨#[temperature], #[(.element 12 101, -1000)]⟩] = .ok [0x6a, 0xb3] := by decide +kernel
  obtain ⟨_, _, spelled, _⟩ := claimed _ _ _ _ encoded
  obtain _ | ⟨⟨actions, logged, _, _, all⟩, _⟩ := spelled
  cases (reference?_of_temperature logged).symm.trans all

end Bufr
