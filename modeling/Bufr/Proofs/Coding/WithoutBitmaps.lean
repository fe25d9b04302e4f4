import Bufr.Proofs.Coding.Recoding

/-!
Templates without bitmaps. Whatever bits were decoded, the subsets are accepted by the encoder, and
decoding what it writes gives them back.
-/

namespace Bufr

open Situation (Log)

def Template.HasNoBitmap (template : Template) : Prop :=
  ∀ code, .operator code ∈ template.ops → code.x.toNat ∉ [22, 23, 24, 25, 32, 35, 36, 37]

def Operator.Refers : Operator → Prop
  | bitmap _ => True
  | reuseBitmap => True
  | _ => False

theorem Operator.ofOperand?_of_plain {code : Descriptor} {op : Operator}
    (plain : code.x.toNat ∉ [22, 23, 24, 25, 32, 35, 36, 37])
    (known : Operator.ofDescriptor code = .ok op) :
    Operator.ofOperand? code.x.toNat code.y.toNat = some op := by
  have noKind : BitmapKind.ofClass? code.x = none := by
    simp only [List.mem_cons, List.not_mem_nil, or_false, not_or] at plain
    unfold BitmapKind.ofClass?
    split <;> first | omega | rfl
  unfold Operator.ofDescriptor at known
  rw [noKind] at known
  simp only at known
  split at known
  next found =>
    cases known
    exact found
  · cases known

theorem Operator.not_refers {code : Descriptor} {op : Operator}
    (plain : code.x.toNat ∉ [22, 23, 24, 25, 32, 35, 36, 37])
    (known : Operator.ofDescriptor code = .ok op) : ¬op.Refers := by
  have found := ofOperand?_of_plain plain known
  unfold Operator.ofOperand? at found
  split at found <;> cases found <;> first | exact id | simp_all

theorem Template.HasNoBitmap.avoids {template : Template} (plain : template.HasNoBitmap) :
    template.Avoids Operator.Refers :=
  fun code _ mem => Operator.not_refers (plain code mem)

def Task.IsPlain : Task → Prop
  | entry => False
  | attach .. => False
  | opens .. => False
  | reuses => False
  | _ => True

section

variable {resolver : Resolver} {template : Template} {subset : Subset} {σ σ' : Situation}
  {event : Event} {events : List Event} {task : Task} {actions : List Action} {kept : List Nat}

theorem Situation.plain_of_step (step : Step resolver σ event task σ')
    (avoids : event.Avoids Operator.Refers) (idle : σ.bitmap.phase = .idle) (data : task.Data) :
    (σ'.record task data).bitmap.phase = .idle ∧ task.IsPlain := by
  have closed : σ.bitmap.isCollecting = false := by rw [Bitmap.isCollecting, idle]
  have idle_settle {σ₁ : Situation} (settled : σ.settle = .ok σ₁) : σ₁.bitmap.phase = .idle := by
    rw [(settle_idle closed).1 settled, idle]
  have unselected {σ₁ σ₂ : Situation} {target : Nat} {targetCode : Descriptor}
      (idle : σ₁.bitmap.phase = .idle) : σ₁.nextTarget ≠ .ok (target, targetCode, σ₂) := by
    intro found
    obtain ⟨_, bitmapOk, _⟩ := nextTarget_ok_iff.1 found
    obtain ⟨_, _, selected, _⟩ := Bitmap.nextTarget_ok_iff.1 bitmapOk
    cases idle.symm.trans selected
  cases step with
  | define | count | modify | keep | forget => exact ⟨idle, trivial⟩
  | entry _ collecting => cases closed.symm.trans collecting
  | unlisted begins | skip begins | value begins =>
      have kept := idle_settle begins.settled
      exact ⟨kept, trivial⟩
  | quality begins _ _ _ _ found =>
      have kept := idle_settle begins.settled
      exact absurd found (unselected kept)
  | insert _ settled =>
      have kept := idle_settle settled
      exact ⟨kept, trivial⟩
  | opens op => exact absurd trivial (avoids _ op)
  | marker _ settled _ found => exact absurd found (unselected (idle_settle settled))
  | reuse op => exact absurd trivial (avoids _ op)
  | cancel => exact ⟨rfl, trivial⟩

theorem Subset.restores_of_plain (log : Log resolver σ events actions σ')
    (plain : ∀ action ∈ actions, action.task.IsPlain) :
    subset.Restores resolver σ kept events actions σ' := by
  induction log generalizing kept with
  | nil => exact .nil
  | cons data first _ ih =>
      obtain ⟨firstPlain, others⟩ := List.forall_mem_cons.1 plain
      refine .cons data first ?_ ?_ ?_ (ih others)
      · rintro _ _ _ rfl
        cases firstPlain
      · rintro _ _ _ rfl
        cases firstPlain
      · rintro rfl
        cases firstPlain

theorem Subset.foresees_of_plain {taken : Nat} (plain : ∀ action ∈ actions, action.task.IsPlain) :
    subset.Foresees resolver taken actions := by
  have rest : subset.Foresees resolver (taken + (actions.filterMap Action.fresh?).length) [] := trivial
  have unopened : ∀ action ∈ actions, ∀ kind walk referable, action.task ≠ .opens kind walk referable := by
    intro action mem kind walk referable opens
    have := plain action mem
    rw [opens] at this
    cases this
  simpa using foresees_append unopened rest

theorem Reading.rewritten_of_plain {x : Bits} (reading : Reading resolver template subset actions x)
    (avoids : template.HasNoBitmap) (narrow : ∀ action ∈ actions, action.task.IsNarrow) :
    subset.Rewritten resolver template x := by
  obtain ⟨events, σ, σ', plays, log, settled⟩ := reading.logged
  obtain ⟨_, plain⟩ := log.induction (P := fun σ => σ.bitmap.phase = .idle)
    (Q := fun action => action.task.IsPlain) (plays.avoids avoids.avoids) rfl
    fun data step avoids idle => Situation.plain_of_step step avoids idle data
  have restores : subset.RestoresAll resolver template actions :=
    ⟨events, σ, σ', plays, Subset.restores_of_plain log plain, settled⟩
  refine restores.rewritten reading (Subset.foresees_of_plain plain) narrow ?_
  intro target code field width data mem
  cases plain _ mem

/-- Subsets that were decoded are encoded in as many octets as the bits that they were read from need,
and decoded as they are. The hypotheses on `performed` say which actions the decoder performed, and
that none of them read a number of more than 63 bits. -/
theorem decode_encode_decode {data : Octets} {count : Nat} {subsets : List Subset} {r : Bits.Reader}
    {performed : List (List Action)} (plain : template.HasNoBitmap)
    (decoded : decodeSubsets resolver template data count = .ok subsets)
    (performs : Decoder.Performs resolver template (.ofOctets data) performed r)
    (all : performed.length = count)
    (narrow : ∀ actions ∈ performed, ∀ action ∈ actions, action.task.IsNarrow) :
    Decoder.readSubsets resolver template [] count (.ofOctets data) = .ok (subsets, r) ∧
      ∃ bytes, encodeSubsets resolver template subsets = .ok bytes ∧
        bytes.length = (r.position + 7) / 8 ∧
        decodeSubsets resolver template bytes count = .ok subsets :=
  encode_of_performed decoded performs all fun actions mem _ reading =>
    reading.rewritten_of_plain plain (narrow actions mem)

end

def stationTemplate : Template := ⟨#[.operator (.operator 4 3), .element (.element 12 101),
  .operator (.operator 4 0), .element (.element 1 15), .replication (.replication 1 0) 1,
  .element (.element 31 1), .element (.element 12 103)]⟩

def stationReports : List Subset := [
  ⟨#[{ Variable.ofValue (.element 12 101) (.decimal 29315 (-2)) with associated := some 5 },
    .ofValue (.element 1 15) (.text "Ab"), .ofValue (.element 31 1) (.integer 1),
    .ofValue (.element 12 103) (.decimal 28000 (-2))], #[]⟩,
  ⟨#[.ofValue (.element 12 101) (.decimal 28715 (-2)), .missing (.element 1 15),
    .ofValue (.element 31 1) (.integer 0)], #[]⟩]

theorem decode_encode_decode_stationReports :
    ∃ (r : Bits.Reader) (bytes : Octets),
      encodeSubsets .station stationTemplate stationReports = .ok bytes ∧
        bytes.length = (r.position + 7) / 8 ∧
        decodeSubsets .station stationTemplate bytes 2 = .ok stationReports := by
  have decoded : decodeSubsets .station stationTemplate
      [174, 80, 104, 44, 68, 0, 45, 172, 29, 192, 175, 255, 255, 252, 3, 255] 2 =
        .ok stationReports := by decide +kernel
  obtain ⟨_, performed, r, performs, all, _⟩ := decodeSubsets_ok_iff_performs.1 decoded
  have plain : stationTemplate.HasNoBitmap := by
    intro code mem
    have here : code = .operator 4 3 ∨ code = .operator 4 0 := by simpa [stationTemplate] using mem
    rcases here with rfl | rfl <;> decide
  have unwidened : stationTemplate.Avoids Operator.IsOnWidth := by
    intro code op mem known
    have here : code = .operator 4 3 ∨ code = .operator 4 0 := by simpa [stationTemplate] using mem
    rcases here with rfl | rfl <;> cases known <;> exact id
  have narrow : ∀ actions ∈ performed, ∀ action ∈ actions, action.task.IsNarrow := by
    intro actions mem
    obtain ⟨_, reading⟩ := performs.reading mem
    exact reading.logged.isNarrow Resolver.isNarrow_station unwidened
  obtain ⟨_, bytes, encoded, octets, again⟩ := decode_encode_decode plain decoded performs all narrow
  exact ⟨r, bytes, encoded, octets, again⟩

end Bufr
