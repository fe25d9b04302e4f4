import Bufr.Proofs.Coding.WithoutBitmaps

/-!
Data that are cut off. A decoder over a front of some octets does what it does over all of them, up to
the first read that goes beyond the front, and that read is refused as truncated. What stands behind
the bits of the last subset is never looked at.
-/

namespace Bufr

/-- Where the one run succeeds, the other one comes to a related result or runs out of data. -/
def UpToEnd {α : Type} (R : α → α → Prop) (whole front : Except Error α) : Prop :=
  ∀ a, whole = .ok a → (∃ b, front = .ok b ∧ R a b) ∨ ∃ e, front = .error e ∧ e.kind = .truncated

def Beside {α σ : Type} (R : σ → σ → Prop) (whole front : α × σ) : Prop :=
  front.1 = whole.1 ∧ R whole.2 front.2

namespace UpToEnd

variable {α β σ : Type} {R : α → α → Prop} {S : β → β → Prop} {x y : Except Error α}

theorem of_ok {a b : α} (related : R a b) : UpToEnd R (.ok a) (.ok b) := by
  rintro _ ⟨⟩
  exact Or.inl ⟨b, rfl, related⟩

theorem of_error {e : Error} : UpToEnd R (.error e) y := nofun

theorem of_end {e : Error} (truncated : e.kind = .truncated) : UpToEnd R x (.error e) :=
  fun _ _ => Or.inr ⟨e, rfl, truncated⟩

theorem bind {f g : α → Except Error β} (first : UpToEnd R x y)
    (more : ∀ a b, R a b → UpToEnd S (f a) (g b)) : UpToEnd S (x >>= f) (y >>= g) := by
  cases x with
  | error e => exact of_error
  | ok a =>
      rcases first a rfl with ⟨b, rfl, related⟩ | ⟨e, rfl, truncated⟩
      · exact more a b related
      · exact of_end truncated

theorem bind_same {f g : α → Except Error β} (more : ∀ a, UpToEnd S (f a) (g a)) :
    UpToEnd S (x >>= f) (x >>= g) := by
  cases x with
  | error e => exact of_error
  | ok a => exact more a

theorem bind_beside {R : σ → σ → Prop} {x y : Except Error (α × σ)}
    {f g : α × σ → Except Error β} (first : UpToEnd (Beside R) x y)
    (more : ∀ a s t, R s t → UpToEnd S (f (a, s)) (g (a, t))) : UpToEnd S (x >>= f) (y >>= g) := by
  refine first.bind ?_
  rintro ⟨_, s⟩ ⟨a, t⟩ ⟨rfl, related⟩
  exact more a s t related

end UpToEnd

/-! ## Reads -/

namespace Bits.Reader

structure HasFront (r cut : Reader) : Prop where
  octets : cut.octets.toList <+: r.octets.toList
  position : cut.position = r.position

variable {r cut : Reader}

theorem HasFront.rest (front : r.HasFront cut) : cut.rest <+: r.rest := by
  obtain ⟨more, same⟩ := front.octets
  refine ⟨(Bits.ofOctets more).drop (cut.position - cut.size), ?_⟩
  rw [Reader.rest, Reader.rest, Reader.all, Reader.all, ← same, Bits.ofOctets_append,
    List.drop_append, front.position, Bits.length_ofOctets, Array.length_toList]
  rfl

theorem HasFront.takes {r' : Reader} {x : Bits} (front : r.HasFront cut) (taken : r.Takes x r') :
    (∃ cut', cut.Takes x cut' ∧ r'.HasFront cut') ∨ cut.remaining < x.length := by
  rcases Nat.lt_or_ge cut.remaining x.length with short | inside
  · exact Or.inr short
  · have begins : x <+: cut.rest := by
      refine List.prefix_of_prefix_length_le ?_ front.rest (by rwa [length_rest])
      rw [taken.rest]
      exact List.prefix_append x r'.rest
    obtain ⟨y, split⟩ := begins
    obtain ⟨cut', takenFront⟩ := exists_takes split.symm
    refine Or.inl ⟨cut', takenFront, ?_, ?_⟩
    · rw [takenFront.octets, taken.octets]
      exact front.octets
    · rw [takenFront.position, taken.position, front.position]

theorem bits_upToEnd (front : r.HasFront cut) (width : Nat) :
    UpToEnd (Beside HasFront) (r.bits width) (cut.bits width) := by
  rintro ⟨n, r'⟩ read
  obtain ⟨narrow, x, long, value, taken⟩ := bits_ok_iff.1 read
  rcases front.takes taken with ⟨cut', takenFront, behind⟩ | short
  · exact Or.inl ⟨(n, cut'), bits_ok_iff.2 ⟨narrow, x, long, value, takenFront⟩, rfl, behind⟩
  · refine Or.inr ⟨.truncatedBits width cut.position cut.remaining, ?_, rfl⟩
    unfold bits remaining size at *
    rw [if_neg (by omega), if_neg (by omega), dif_neg (by omega)]

theorem text_upToEnd (front : r.HasFront cut) (count : Nat) :
    UpToEnd (Beside HasFront) (r.text count) (cut.text count) := by
  rintro ⟨octets, r'⟩ read
  obtain ⟨long, taken⟩ := text_ok_iff.1 read
  rcases front.takes taken with ⟨cut', takenFront, behind⟩ | short
  · exact Or.inl ⟨(octets, cut'), text_ok_iff.2 ⟨long, takenFront⟩, rfl, behind⟩
  · refine Or.inr ⟨.truncatedBits (8 * count) cut.position cut.remaining, ?_, rfl⟩
    rw [Bits.length_ofOctets, long] at short
    unfold text remaining size at *
    rw [dif_neg (by omega)]

theorem number_upToEnd (front : r.HasFront cut) (width : Nat) :
    UpToEnd (Beside HasFront) (r.number width) (cut.number width) :=
  (bits_upToEnd front width).bind_beside fun _ _ _ front => .of_ok ⟨rfl, front⟩

theorem signed_upToEnd (front : r.HasFront cut) (width : Nat) :
    UpToEnd (Beside HasFront) (r.signed width) (cut.signed width) := by
  unfold signed
  split
  · exact .of_error
  · exact (bits_upToEnd front width).bind_beside fun _ _ _ front => .of_ok ⟨rfl, front⟩

end Bits.Reader

open Bits.Reader (HasFront)

variable {r cut : Bits.Reader}

namespace Field

theorem readText_upToEnd (front : r.HasFront cut) (code : Descriptor) (octets : Nat) :
    UpToEnd (Beside HasFront) (readText code octets r) (readText code octets cut) :=
  (Bits.Reader.text_upToEnd front octets).bind_beside fun _ _ _ front =>
    .bind_same fun _ => .of_ok ⟨rfl, front⟩

theorem read_upToEnd (front : r.HasFront cut) (field : Field) :
    UpToEnd (Beside HasFront) (field.read r) (field.read cut) := by
  unfold Field.read
  split
  · exact readText_upToEnd front field.code field.octetCount
  · exact (Bits.Reader.number_upToEnd front field.width).bind_beside fun _ _ _ front =>
      .bind_same fun _ => .of_ok ⟨rfl, front⟩

end Field

/-! ## Runs -/

namespace Coder

variable {State : Type} {coder : Coder State} {resolver : Resolver} {R : State → State → Prop}

structure AnswersUpToEnd (coder : Coder State) (R : State → State → Prop) : Prop where
  element : ∀ code s t, R s t → UpToEnd R (coder.element code s) (coder.element code t)
  count : ∀ replication code s t, R s t →
    UpToEnd (Beside R) (coder.count replication code s) (coder.count replication code t)
  operator : ∀ walk code s t, R s t →
    UpToEnd R (coder.operator walk code s) (coder.operator walk code t)

variable {walk : Walk} {s t : State}

theorem step_upToEnd (answers : coder.AnswersUpToEnd R) (related : R s t) :
    UpToEnd (Beside R) (coder.step resolver walk s) (coder.step resolver walk t) := by
  rintro ⟨walk', s'⟩ stepped
  cases walk' with
  | none =>
      obtain ⟨ended, rfl⟩ := done_of_step stepped
      exact Or.inl ⟨(none, t), by rw [step, ended], rfl, related⟩
  | some walk' =>
      cases steps_of_step stepped with
      | element next answered =>
          rcases answers.element _ s t related _ answered with ⟨t', answeredFront, behind⟩ |
            ⟨e, ended, truncated⟩
          · exact Or.inl ⟨(some walk', t'), by simp [step, next, answeredFront, Except.map], rfl, behind⟩
          · exact Or.inr ⟨e, by simp [step, next, ended, Except.map], truncated⟩
      | operator next answered =>
          rcases answers.operator _ _ s t related _ answered with ⟨t', answeredFront, behind⟩ |
            ⟨e, ended, truncated⟩
          · exact Or.inl ⟨(some walk', t'), by simp [step, next, answeredFront, Except.map], rfl, behind⟩
          · exact Or.inr ⟨e, by simp [step, next, ended, Except.map], truncated⟩
      | fixed next counted replicated =>
          refine Or.inl ⟨(some walk', t), ?_, rfl, related⟩
          simp [step, next, replication, counted, replicated, Except.map]
      | delayed next counted nextCount isCount answered replicated =>
          rcases answers.count _ _ s t related _ answered with
            ⟨⟨_, t'⟩, answeredFront, rfl, behind⟩ | ⟨e, ended, truncated⟩
          · refine Or.inl ⟨(some walk', t'), ?_, rfl, behind⟩
            simp [step, next, replication, counted, delayed, nextCount, isCount, answeredFront,
              replicated, Except.map]
          · refine Or.inr ⟨e, ?_, truncated⟩
            simp [step, next, replication, counted, delayed, nextCount, isCount, ended, Except.map]

theorem run_upToEnd (answers : coder.AnswersUpToEnd R) (related : R s t) :
    UpToEnd R (coder.run resolver walk s) (coder.run resolver walk t) := by
  induction walk, s using run.induct coder resolver generalizing t with
  | case1 walk s e failed =>
      rw [run, failed]
      exact .of_error
  | case2 walk s s' stepped =>
      rw [run, stepped, run]
      rcases step_upToEnd answers related _ stepped with ⟨⟨_, t'⟩, front, rfl, behind⟩ |
        ⟨e, ended, truncated⟩
      · rw [front]
        exact .of_ok behind
      · rw [ended]
        exact .of_end truncated
  | case3 walk s walk' s' stepped ih =>
      rw [run, stepped, run.eq_def coder resolver walk t]
      rcases step_upToEnd answers related _ stepped with ⟨⟨_, t'⟩, front, rfl, behind⟩ |
        ⟨e, ended, truncated⟩
      · rw [front]
        exact ih behind
      · rw [ended]
        exact .of_end truncated

end Coder

/-! ## Decoders -/

namespace Decoder

def HasFront (s t : Decoder) : Prop :=
  ∃ cut, s.reader.HasFront cut ∧ t = { s with reader := cut }

theorem hasFront_of_reader (front : r.HasFront cut) {modifiers : Modifiers} {bitmap : Bitmap}
    {subset : Subset} {referable : Array Nat} :
    HasFront ⟨r, modifiers, bitmap, subset, referable⟩ ⟨cut, modifiers, bitmap, subset, referable⟩ :=
  ⟨cut, front, rfl⟩

variable {s t : Decoder} {resolver : Resolver}

theorem HasFront.emit (front : s.HasFront t) (v : Variable) : (s.emit v).HasFront (t.emit v) := by
  obtain ⟨cut, front, rfl⟩ := front
  unfold Decoder.emit refer
  split
  · exact hasFront_of_reader front
  · exact hasFront_of_reader front

theorem settle_upToEnd (front : s.HasFront t) : UpToEnd HasFront s.settle t.settle := by
  obtain ⟨cut, front, rfl⟩ := front
  exact .bind_same fun _ => .of_ok (hasFront_of_reader front)

theorem attachTo_upToEnd (front : s.HasFront t) (target : Nat) (v : Variable) :
    UpToEnd HasFront (s.attachTo target v) (t.attachTo target v) := by
  obtain ⟨cut, front, rfl⟩ := front
  unfold attachTo
  split
  · exact .of_ok (hasFront_of_reader front)
  · exact .of_error

theorem defineReference_upToEnd (front : s.HasFront t) (code : Descriptor) (bits : Nat) :
    UpToEnd HasFront (s.defineReference code bits) (t.defineReference code bits) := by
  obtain ⟨cut, front, rfl⟩ := front
  exact (Bits.Reader.signed_upToEnd front bits).bind_beside fun _ _ _ front =>
    .of_ok (hasFront_of_reader front)

theorem bitmapEntry_upToEnd (front : s.HasFront t) :
    UpToEnd HasFront s.bitmapEntry t.bitmapEntry := by
  obtain ⟨cut, front, rfl⟩ := front
  exact (Bits.Reader.bits_upToEnd front 1).bind_beside fun _ _ _ front =>
    .of_ok (hasFront_of_reader front)

theorem localElement_upToEnd (front : s.HasFront t) (code : Descriptor) (width : Nat) :
    UpToEnd HasFront (s.localElement code width) (t.localElement code width) := by
  obtain ⟨cut, front, rfl⟩ := front
  exact (Bits.Reader.number_upToEnd front width).bind_beside fun _ _ _ front =>
    .of_ok ((hasFront_of_reader front).emit _)

theorem associatedField_upToEnd (front : s.HasFront t) (code : Descriptor) :
    UpToEnd (Beside HasFront) (s.associatedField code) (t.associatedField code) := by
  obtain ⟨cut, front, rfl⟩ := front
  unfold associatedField
  simp only
  split
  · exact .of_ok ⟨rfl, hasFront_of_reader front⟩
  · exact (Bits.Reader.number_upToEnd front _).bind_beside fun _ _ _ front =>
      .of_ok ⟨rfl, hasFront_of_reader front⟩

theorem place_upToEnd (front : s.HasFront t) (v : Variable) :
    UpToEnd HasFront (s.place v) (t.place v) := by
  obtain ⟨cut, front, rfl⟩ := front
  unfold place
  simp only
  split
  · exact .bind_same fun _ => attachTo_upToEnd (hasFront_of_reader front) _ v
  · exact .of_ok ((hasFront_of_reader front).emit v)

theorem knownElement_upToEnd (front : s.HasFront t) (code : Descriptor) (info : ElementInfo)
    (localWidth? : Option Nat) :
    UpToEnd HasFront (s.knownElement code info localWidth?) (t.knownElement code info localWidth?) := by
  obtain ⟨cut, front, rfl⟩ := front
  unfold knownElement
  simp only
  split
  · exact .of_ok ((hasFront_of_reader front).emit _)
  · refine .bind_same fun _ => ?_
    refine (associatedField_upToEnd (hasFront_of_reader front) code).bind_beside ?_
    rintro associated s₁ _ ⟨cut, front, rfl⟩
    exact (Field.read_upToEnd front _).bind_beside fun _ _ _ front =>
      place_upToEnd (hasFront_of_reader front) _

theorem element_upToEnd (front : s.HasFront t) (code : Descriptor) :
    UpToEnd HasFront (element resolver code s) (element resolver code t) := by
  have settled := settle_upToEnd front
  obtain ⟨cut, front, rfl⟩ := front
  unfold element
  simp only
  split
  · exact defineReference_upToEnd (hasFront_of_reader front) code _
  split
  · exact bitmapEntry_upToEnd (hasFront_of_reader front)
  refine settled.bind ?_
  rintro s₁ _ ⟨cut, front, rfl⟩
  simp only
  split
  · exact knownElement_upToEnd (hasFront_of_reader front) code _ _
  · split
    · exact localElement_upToEnd (hasFront_of_reader front) code _
    · exact .of_error
  · exact .of_error

theorem count_upToEnd (front : s.HasFront t) (replication code : Descriptor) :
    UpToEnd (Beside HasFront) (count resolver replication code s)
      (count resolver replication code t) := by
  obtain ⟨cut, front, rfl⟩ := front
  refine .bind_same fun info => (Bits.Reader.bits_upToEnd front info.width).bind_beside ?_
  intro raw _ _ front
  simp only
  split
  · exact .of_error
  · exact .of_ok ⟨rfl, (hasFront_of_reader front).emit _⟩

theorem marker_upToEnd (front : s.HasFront t) (code : Descriptor) (kind : BitmapKind) :
    UpToEnd HasFront (s.marker resolver code kind) (t.marker resolver code kind) := by
  obtain ⟨cut, front, rfl⟩ := front
  unfold marker
  simp only
  split
  · exact .of_error
  · refine .bind_same fun _ => .bind_same fun _ => .bind_same fun _ => ?_
    exact (Field.read_upToEnd front _).bind_beside fun _ _ _ front =>
      attachTo_upToEnd (hasFront_of_reader front) _ _

theorem operator_upToEnd (front : s.HasFront t) (code : Descriptor) :
    UpToEnd HasFront (operator resolver code s) (operator resolver code t) := by
  have settled := settle_upToEnd front
  obtain ⟨cut, front, rfl⟩ := front
  refine .bind_same fun op => ?_
  cases op with
  | modify | keepBitmap | forgetBitmap => exact .of_ok (hasFront_of_reader front)
  | insertText octets =>
      refine settled.bind ?_
      rintro s₁ _ ⟨cut, front, rfl⟩
      exact (Field.readText_upToEnd front code octets).bind_beside fun _ _ _ front =>
        .of_ok ((hasFront_of_reader front).emit _)
  | bitmap | cancelReferrals =>
      refine settled.bind ?_
      rintro s₁ _ ⟨cut, front, rfl⟩
      exact .of_ok (hasFront_of_reader front)
  | marker kind => exact settled.bind fun _ _ front => marker_upToEnd front code kind
  | reuseBitmap => exact .bind_same fun _ => .of_ok (hasFront_of_reader front)

theorem answersUpToEnd (resolver : Resolver) : (coder resolver).AnswersUpToEnd HasFront where
  element code _ _ front := element_upToEnd front code
  count replication code _ _ front := count_upToEnd front replication code
  operator _ code _ _ front := operator_upToEnd front code

variable {template : Template}

theorem readSubset_upToEnd (front : r.HasFront cut) :
    UpToEnd (Beside Bits.Reader.HasFront) (readSubset resolver template r)
      (readSubset resolver template cut) := by
  refine (Coder.run_upToEnd (answersUpToEnd resolver) (hasFront_of_reader front)).bind ?_
  intro _ _ front
  refine (settle_upToEnd front).bind ?_
  rintro s₁ _ ⟨cut, front, rfl⟩
  exact .of_ok ⟨rfl, front⟩

theorem readSubsets_upToEnd (front : r.HasFront cut) (done : List Subset) (count : Nat) :
    UpToEnd (Beside Bits.Reader.HasFront) (readSubsets resolver template done count r)
      (readSubsets resolver template done count cut) := by
  induction count generalizing r cut done with
  | zero => exact .of_ok ⟨rfl, front⟩
  | succ count ih =>
      rw [readSubsets_succ, readSubsets_succ]
      exact (readSubset_upToEnd front).bind_beside fun subset _ _ front => ih front (subset :: done)

end Decoder

/-! ## Data that are cut off, and data that go on -/

section

variable {resolver : Resolver} {template : Template} {data : Octets} {count : Nat}
  {subsets : List Subset}

theorem exists_readSubsets (decoded : decodeSubsets resolver template data count = .ok subsets) :
    ∃ r, Decoder.readSubsets resolver template [] count (.ofOctets data) = .ok (subsets, r) := by
  unfold decodeSubsets at decoded
  split at decoded
  · obtain ⟨⟨_, r⟩, read, rfl⟩ := map_eq_ok_iff.1 decoded
    exact ⟨r, read⟩
  · cases decoded

theorem decodeSubsets_of_prefix
    (decoded : decodeSubsets resolver template data count = .ok subsets)
    (read : Decoder.readSubsets resolver template [] count (.ofOctets data) = .ok (subsets, r))
    {other : Octets} (same : (Bits.ofOctets data).take r.position <+: Bits.ofOctets other) :
    decodeSubsets resolver template other count = .ok subsets := by
  obtain ⟨fit, long, _⟩ := decodeSubsets_ok_iff.1 decoded
  obtain ⟨_, x, rfl, _, spelled, taken⟩ := Decoder.readSubsets_ok_iff.1 read
  obtain ⟨y, split⟩ := same
  have position : r.position = x.length := taken.position.trans (Nat.zero_add _)
  rw [← Bits.Reader.rest_ofOctets data, taken.rest, position, List.take_left] at split
  exact decodeSubsets_ok_iff.2 ⟨fit, long, x, y, spelled, split.symm⟩

theorem truncated_of_prefix
    (decoded : decodeSubsets resolver template data count = .ok subsets)
    (read : Decoder.readSubsets resolver template [] count (.ofOctets data) = .ok (subsets, r))
    {front : Octets} (begins : front <+: data) (short : 8 * front.length < r.position) :
    ∃ e, decodeSubsets resolver template front count = .error e ∧ e.kind = .truncated := by
  obtain ⟨fit, _⟩ := decodeSubsets_ok_iff.1 decoded
  have start : (Bits.Reader.ofOctets data).HasFront (.ofOctets front) := ⟨begins, rfl⟩
  unfold decodeSubsets
  rw [if_pos fit]
  rcases Decoder.readSubsets_upToEnd start [] count _ read with ⟨⟨_, cut⟩, readFront, rfl, behind⟩ |
    ⟨e, ended, truncated⟩
  · -- A reader that is as far as the other one would be behind the front.
    obtain ⟨_, _, _, _, _, taken⟩ := Decoder.readSubsets_ok_iff.1 readFront
    have inside := cut.position_le
    have position : cut.position = r.position := behind.position
    rw [position, taken.octets, Bits.Reader.ofOctets, List.size_toArray] at inside
    omega
  · exact ⟨e, by rw [ended]; rfl, truncated⟩

/-- The subsets depend on the bits that they were read from, on all of them and on nothing else. -/
theorem decodeSubsets_of_front
    (decoded : decodeSubsets resolver template data count = .ok subsets) :
    ∃ r : Bits.Reader,
      Decoder.readSubsets resolver template [] count (.ofOctets data) = .ok (subsets, r) ∧
      (∀ other : Octets, (Bits.ofOctets data).take r.position <+: Bits.ofOctets other →
        decodeSubsets resolver template other count = .ok subsets) ∧
      ∀ front : Octets, front <+: data → 8 * front.length < r.position →
        ∃ e, decodeSubsets resolver template front count = .error e ∧ e.kind = .truncated := by
  obtain ⟨r, read⟩ := exists_readSubsets decoded
  exact ⟨r, read, fun _ same => decodeSubsets_of_prefix decoded read same,
    fun _ begins short => truncated_of_prefix decoded read begins short⟩

end

theorem decodeSubsets_of_front_stationReports :
    decodeSubsets .station stationTemplate
      [174, 80, 104, 44, 68, 0, 45, 172, 29, 192, 175, 255, 255, 252, 1, 17] 2 =
        .ok stationReports ∧
    ∃ e, decodeSubsets .station stationTemplate
      [174, 80, 104, 44, 68, 0, 45, 172, 29, 192, 175, 255, 255, 252] 2 = .error e ∧
        e.kind = .truncated := by
  have decoded : decodeSubsets .station stationTemplate
      [174, 80, 104, 44, 68, 0, 45, 172, 29, 192, 175, 255, 255, 252, 3, 255] 2 =
        .ok stationReports := by decide +kernel
  obtain ⟨r, read, more, less⟩ := decodeSubsets_of_front decoded
  have position : r.position = 118 := by
    have known : (Decoder.readSubsets .station stationTemplate [] 2
        (.ofOctets [174, 80, 104, 44, 68, 0, 45, 172, 29, 192, 175, 255, 255, 252, 3, 255])).map
          (·.2.position) = .ok 118 := by decide +kernel
    rw [read] at known
    exact Except.ok.inj known
  rw [position] at more less
  exact ⟨more _ (by decide +kernel), less _ (by decide) (by decide)⟩

end Bufr
