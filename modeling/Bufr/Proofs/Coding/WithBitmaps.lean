import Bufr.Proofs.Coding.Recoding
import Bufr.Template.Expansion

/-!
Templates with bitmaps. A subset does not hold the bitmaps it was read with, but only what they gave to
the variables, under codes that several bitmaps can share. So what was decoded is decoded again where
the attributes tell each bitmap, and not in general.
-/

namespace Bufr

open Situation (Log)
open Bufr.Action (given)

section

variable {resolver : Resolver} {template : Template} {subset : Subset} {actions : List Action}

theorem Subset.RestoresAll.rewritten_of_blocks {x : Bits}
    (restores : subset.RestoresAll resolver template actions)
    (blocks : Blocks resolver template.ops.toList)
    (reading : Reading resolver template subset actions x)
    (narrow : ∀ action ∈ actions, action.task.IsNarrow) (fits : subset.FitsAttributes actions) :
    subset.Rewritten resolver template x := by
  obtain ⟨events, σ, σ', plays, along, settled⟩ := restores
  have holds : subset.Holds 0 actions := reading.recorded ▸ holds_recordAll along.log
  have foresees := foresees_of_blocks blocks (List.drop_zero (l := template.ops.toList)) plays along
    ⟨σ', settled⟩ holds reading.isWord
  exact rewritten ⟨events, σ, σ', plays, along, settled⟩ reading foresees narrow fits

/-- Subsets whose attributes tell their bitmaps are decoded again from what the encoder makes of them. -/
theorem decode_encode_decode_of_blocks {data : Octets} {count : Nat} {subsets : List Subset}
    {r : Bits.Reader} {performed : List (List Action)} (blocks : Blocks resolver template.ops.toList)
    (decoded : decodeSubsets resolver template data count = .ok subsets)
    (performs : Decoder.Performs resolver template (.ofOctets data) performed r)
    (all : performed.length = count)
    (narrow : ∀ actions ∈ performed, ∀ action ∈ actions, action.task.IsNarrow)
    (restores : ∀ actions ∈ performed,
      (Subset.empty.recordAll actions).RestoresAll resolver template actions)
    (fits : ∀ actions ∈ performed, (Subset.empty.recordAll actions).FitsAttributes actions) :
    Decoder.readSubsets resolver template [] count (.ofOctets data) = .ok (subsets, r) ∧
      ∃ bytes, encodeSubsets resolver template subsets = .ok bytes ∧
        bytes.length = (r.position + 7) / 8 ∧
        decodeSubsets resolver template bytes count = .ok subsets :=
  encode_of_performed decoded performs all fun actions mem _ reading =>
    (restores actions mem).rewritten_of_blocks blocks reading (narrow actions mem) (fits actions mem)

end

/-! ## Names with others in their place -/

def amendedTemplate : Template := ⟨#[.element (.element 1 15), .element (.element 1 15),
  .operator (.operator 23 0), .element .dataPresent, .element .dataPresent,
  .operator (.operator 23 255), .operator (.operator 32 0), .replication (.replication 1 2) 1,
  .element .dataPresent, .operator (.operator 32 255)]⟩

def amendedReport : Subset := ⟨#[
  { Variable.ofValue (.element 1 15) (.text "Ab") with
    attributes := [.ofValue (.operator 32 255) (.text "Ac")] },
  { Variable.ofValue (.element 1 15) (.text "Cd") with
    attributes := [.ofValue (.operator 23 255) (.text "Ce")] }], #[]⟩

def nameField : Field := ⟨.element 1 15, 24, 0, 0, true⟩

def amendedActions : List Action := [
  ⟨.value (.element 1 15) nameField 0, (.text "Ab", none)⟩,
  ⟨.value (.element 1 15) nameField 0, (.text "Cd", none)⟩,
  ⟨.opens .substituted ⟨amendedTemplate, 3, []⟩ #[0, 1], ()⟩, ⟨.entry, false⟩, ⟨.entry, true⟩,
  ⟨.attach 1 (.operator 23 255) nameField 0, (.text "Ce", none)⟩,
  ⟨.opens .replaced ⟨amendedTemplate, 7, []⟩ #[0, 1], ()⟩, ⟨.entry, true⟩, ⟨.entry, false⟩,
  ⟨.attach 0 (.operator 32 255) nameField 0, (.text "Ac", none)⟩]

theorem blocks_amendedTemplate : Blocks .station amendedTemplate.ops.toList := by
  have ended (kind : BitmapKind) (code : Descriptor)
      (marks : Operator.ofDescriptor code = .ok (.marker kind)) (rest : List Opcode) :
      EntryRun .station (.operator code :: rest) := .ends (.operator marks trivial)
  have marker (kind : BitmapKind) (code : Descriptor) {rest : List Opcode}
      (marks : Operator.ofDescriptor code = .ok (.marker kind)) (more : Blocks .station rest) :
      Blocks .station (.operator code :: rest) :=
    .operator (fun _ opens => by cases marks.symm.trans opens) more
  have entries : EntryRun .station (.replication (.replication 1 2) 1 :: .element .dataPresent ::
      [.operator (.operator 32 255)]) :=
    @EntryRun.fixed .station (.replication 1 2) 2 [.element .dataPresent] _ rfl
      (fun _ mem => List.mem_singleton.1 mem) (ended .replaced _ rfl _)
  have replaced : Blocks .station (.operator (.operator 32 0) :: .replication (.replication 1 2) 1 ::
      .element .dataPresent :: [.operator (.operator 32 255)]) :=
    .operator (fun _ _ => .inl entries)
      (@Blocks.fixed .station (.replication 1 2) 2 [.element .dataPresent] _ rfl (.element .nil)
        (fun _ _ mem => by cases List.mem_singleton.1 mem) (marker .replaced _ rfl .nil))
  exact .element (.element (.operator (fun _ _ => .inl (.entry (.entry (ended .substituted _ rfl _))))
    (.element (.element (marker .substituted _ rfl replaced)))))

theorem restores_amendedReport :
    amendedReport.RestoresAll .station amendedTemplate amendedActions := by
  let named : Situation := ⟨.none, .none, #[.element 1 15], #[0]⟩
  let both : Situation := ⟨.none, .none, #[.element 1 15, .element 1 15], #[0, 1]⟩
  let under (kind : BitmapKind) (phase : Bitmap.Phase) : Situation :=
    { both with bitmap := ⟨some kind, phase, false, .none⟩ }
  have first : Situation.start.task .station (.element (.element 1 15)) =
      .ok (.value (.element 1 15) nameField 0, named) := rfl
  have second : named.task .station (.element (.element 1 15)) =
      .ok (.value (.element 1 15) nameField 0, both) := rfl
  have substituted : both.task .station (.operator ⟨amendedTemplate, 3, []⟩ (.operator 23 0)) =
      .ok (.opens .substituted ⟨amendedTemplate, 3, []⟩ #[0, 1],
        under .substituted (.collecting 2 #[])) := rfl
  have entry (kind : BitmapKind) (entries : Array Bool) :
      (under kind (.collecting 2 entries)).task .station (.element .dataPresent) =
        .ok (.entry, under kind (.collecting 2 entries)) := rfl
  have substitute : (under .substituted (.collecting 2 #[false, true])).task .station
      (.operator ⟨amendedTemplate, 6, []⟩ (.operator 23 255)) =
        .ok (.attach 1 (.operator 23 255) nameField 0, under .substituted (.selected #[1] 1)) := rfl
  have replaced : (under .substituted (.selected #[1] 1)).task .station
      (.operator ⟨amendedTemplate, 7, []⟩ (.operator 32 0)) =
        .ok (.opens .replaced ⟨amendedTemplate, 7, []⟩ #[0, 1],
          under .replaced (.collecting 2 #[])) := rfl
  have replacement : (under .replaced (.collecting 2 #[true, false])).task .station
      (.operator ⟨amendedTemplate, 10, []⟩ (.operator 32 255)) =
        .ok (.attach 0 (.operator 32 255) nameField 0, under .replaced (.selected #[0] 1)) := rfl
  refine ⟨_, _, _, .element rfl (.element rfl (.operator rfl (.element rfl (.element rfl
      (.operator rfl (.operator rfl (.fixed rfl rfl rfl (.element rfl (.element rfl (.operator rfl
        (.done rfl))))))))))),
    .cons _ first nofun nofun nofun (.cons _ second nofun nofun nofun
      (.cons _ substituted (fun _ _ _ _ => rfl) ?_ nofun
        (.cons _ (entry _ _) nofun nofun nofun (.cons _ (entry _ _) nofun nofun nofun
          (.cons _ substitute nofun nofun nofun (.cons _ replaced (fun _ _ _ _ => rfl) ?_ nofun
            (.cons _ (entry _ _) nofun nofun nofun (.cons _ (entry _ _) nofun nofun nofun
              (.cons _ replacement nofun nofun nofun .nil))))))))), rfl⟩
  all_goals
    rintro kind walk referable same
    cases same
    decide +kernel

theorem decode_encode_decode_amendedReport :
    ∃ (r : Bits.Reader) (bytes : Octets),
      decodeSubsets .station amendedTemplate
          [65, 98, 32, 67, 100, 32, 144, 217, 72, 20, 22, 50, 15] 1 = .ok [amendedReport] ∧
        encodeSubsets .station amendedTemplate [amendedReport] = .ok bytes ∧
        bytes.length = (r.position + 7) / 8 ∧
        decodeSubsets .station amendedTemplate bytes 1 = .ok [amendedReport] := by
  have text (octets : Octets) (v : Value) (long : octets.length = 3)
      (read : Field.ofOctets nameField.code octets = .ok v) :
      nameField.ReadsBoth 0 (Bits.ofOctets octets) (v, none) :=
    Field.readsBoth_of_reads ⟨octets, long, rfl, read⟩
  have firstName := text [65, 98, 32] (.text "Ab") rfl (by decide +kernel)
  have secondName := text [67, 100, 32] (.text "Cd") rfl (by decide +kernel)
  have substitute := text [67, 101, 32] (.text "Ce") rfl (by decide +kernel)
  have replacement := text [65, 99, 32] (.text "Ac") rfl (by decide +kernel)
  have spelled : ∃ x y, Bits.Spelled Action.Reads amendedActions x ∧
      Bits.ofOctets [65, 98, 32, 67, 100, 32, 144, 217, 72, 20, 22, 50, 15] = x ++ y := by
    refine ⟨_, List.replicate 4 true, .cons firstName (.cons secondName (.cons (Eq.refl [])
      (.cons (Eq.refl [true]) (.cons (Eq.refl [false]) (.cons substitute (.cons (Eq.refl [])
        (.cons (Eq.refl [false]) (.cons (Eq.refl [true]) (.cons replacement .nil))))))))), ?_⟩
    decide +kernel
  obtain ⟨x, y, spelled, octets⟩ := spelled
  rw [← Bits.Reader.rest_ofOctets] at octets
  obtain ⟨r, taken⟩ := Bits.Reader.exists_takes octets
  have recorded : Subset.empty.recordAll amendedActions = amendedReport := by decide +kernel
  have restores : (Subset.empty.recordAll amendedActions).RestoresAll .station
      amendedTemplate amendedActions := recorded ▸ restores_amendedReport
  obtain ⟨events, σ, σ', plays, along, settled⟩ := restores
  have reading : Reading .station amendedTemplate (Subset.empty.recordAll amendedActions)
      amendedActions x := ⟨⟨events, σ, σ', plays, along.log, settled⟩, spelled, rfl⟩
  have performs : Decoder.Performs .station amendedTemplate
      (.ofOctets [65, 98, 32, 67, 100, 32, 144, 217, 72, 20, 22, 50, 15]) [amendedActions] r :=
    ⟨x ++ [], .cons reading .nil, (List.append_nil x).symm ▸ taken⟩
  have only {P : List Action → Prop} (holds : P amendedActions) :
      ∀ actions ∈ [amendedActions], P actions :=
    List.forall_mem_cons.2 ⟨holds, nofun⟩
  have decoded : decodeSubsets .station amendedTemplate
      [65, 98, 32, 67, 100, 32, 144, 217, 72, 20, 22, 50, 15] 1 = .ok [amendedReport] := by
    decide +kernel
  have narrow : ∀ action ∈ amendedActions, action.task.IsNarrow := by
    simp only [amendedActions, List.forall_mem_cons]
    exact ⟨nofun, nofun, trivial, trivial, trivial, nofun, trivial, trivial, trivial, nofun, nofun⟩
  have left : (Subset.empty.recordAll amendedActions).attributeData 1 (.operator 23 255) =
        (.text "Ce", none) ∧
      (Subset.empty.recordAll amendedActions).attributeData 0 (.operator 32 255) =
        (.text "Ac", none) := by
    rw [recorded]
    exact ⟨rfl, rfl⟩
  have fits : (Subset.empty.recordAll amendedActions).FitsAttributes amendedActions := by
    intro target code field width data mem
    simp only [amendedActions, List.mem_cons, List.not_mem_nil, or_false] at mem
    rcases mem with same | same | same | same | same | same | same | same | same | same <;> cases same
    · rw [left.1]
      exact ⟨_, substitute⟩
    · rw [left.2]
      exact ⟨_, replacement⟩
  obtain ⟨_, bytes, encoded, long, again⟩ := decode_encode_decode_of_blocks blocks_amendedTemplate
    decoded performs rfl (only narrow) (only ⟨events, σ, σ', plays, along, settled⟩) (only fits)
  exact ⟨r, bytes, decoded, encoded, long, again⟩

/-! ## Two bitmaps with the same codes -/

/-- A confidence for the one or the other temperature, twice. -/
def twiceConfidentChain : Chain := [.element 12 101, .element 12 103, .operator 22 0, .replication 1 2,
  .element 31 31, .element 33 7, .operator 22 0, .replication 1 2, .element 31 31, .element 33 7]

def twiceConfidentTemplate : Template := ⟨#[.element (.element 12 101), .element (.element 12 103),
  .operator (.operator 22 0), .replication (.replication 1 2) 1, .element (.element 31 31),
  .element (.element 33 7), .operator (.operator 22 0), .replication (.replication 1 2) 1,
  .element (.element 31 31), .element (.element 33 7)]⟩

def twiceConfidentReport : Subset := ⟨#[
  { Variable.ofValue (.element 12 101) (.decimal 27315 (-2)) with
    attributes := [.ofValue (.element 33 7) (.integer 34)] },
  { Variable.ofValue (.element 12 103) (.decimal 27314 (-2)) with
    attributes := [.ofValue (.element 33 7) (.integer 20)] }], #[]⟩

theorem blocks_twiceConfident : Blocks .station twiceConfidentTemplate.ops.toList := by
  have entries (rest : List Opcode) (ended : Ends .station rest) :
      EntryRun .station (.replication (.replication 1 2) 1 :: .element .dataPresent :: rest) :=
    @EntryRun.fixed .station (.replication 1 2) 2 [.element .dataPresent] rest rfl
      (fun _ mem => List.mem_singleton.1 mem) (.ends ended)
  have block (rest : List Opcode) (ended : Ends .station (.element (.element 33 7) :: rest))
      (more : Blocks .station rest) :
      Blocks .station (.operator (.operator 22 0) :: .replication (.replication 1 2) 1 ::
        .element .dataPresent :: .element (.element 33 7) :: rest) :=
    .operator (fun _ _ => Or.inl (entries _ ended))
      (@Blocks.fixed .station (.replication 1 2) 2 [.element .dataPresent] _ rfl (.element .nil)
        (fun _ _ mem => by cases List.mem_singleton.1 mem) (.element more))
  have ended (rest : List Opcode) : Ends .station (.element (.element 33 7) :: rest) :=
    .element (by decide)
  exact .element (.element (block _ (ended _) (block _ (ended _) .nil)))

/-- The encoder marks both temperatures for both bitmaps, so that the first gets both values. -/
theorem not_always_decoded_again :
    ¬∀ (resolver : Resolver) (chain : Chain) (template : Template) (data : Octets) (count : Nat)
        (subsets : List Subset),
      Template.expand resolver chain = .ok template → Blocks resolver template.ops.toList →
      decodeSubsets resolver template data count = .ok subsets →
      (∀ performed r, Decoder.Performs resolver template (.ofOctets data) performed r →
        ∀ actions ∈ performed, ∀ action ∈ actions, action.task.IsNarrow) →
      ∃ bytes, encodeSubsets resolver template subsets = .ok bytes ∧
        decodeSubsets resolver template bytes count = .ok subsets := by
  intro always
  have avoids : twiceConfidentTemplate.Avoids Operator.IsOnWidth := by
    intro code op mem known
    have here : code = .operator 22 0 := by simpa [twiceConfidentTemplate] using mem
    subst here
    cases known
    exact id
  obtain ⟨bytes, encoded, again⟩ := always .station twiceConfidentChain twiceConfidentTemplate
    [106, 179, 106, 178, 81, 69, 20] 1 [twiceConfidentReport] (by decide +kernel) blocks_twiceConfident
    (by decide +kernel) fun performed r performs actions mem => by
      obtain ⟨_, reading⟩ := performs.reading mem
      exact reading.logged.isNarrow Resolver.isNarrow_station avoids
  have written : encodeSubsets .station twiceConfidentTemplate [twiceConfidentReport] =
      .ok [106, 179, 106, 178, 17, 8, 128] := by decide +kernel
  cases written.symm.trans encoded
  have other : decodeSubsets .station twiceConfidentTemplate [106, 179, 106, 178, 17, 8, 128] 1 ≠
      .ok [twiceConfidentReport] := by decide +kernel
  exact other again

end Bufr
