import Bufr.Proofs.Bits.Calls

/-!
A reader under any calls whatever, those that fail included. It is a cursor on a string of bits: what
a call gives depends on the bits behind the cursor and on nothing that happened before.
-/

namespace Bufr.Bits

inductive Query where
  | bits (width : Nat)
  | number (width : Nat)
  | signed (width : Nat)
  | text (length : Nat)
deriving DecidableEq

namespace Query

def width : Query → Nat
  | bits width | number width | signed width => width
  | text length => 8 * length

def isSupported : Query → Bool
  | bits width | number width => width ≤ 64
  | signed width => 2 ≤ width && width ≤ 64
  | text _ => true

def read (r : Reader) : Query → Except Error (Content × Reader)
  | bits width => do
    let (n, r) ← r.bits width
    return (.bits n, r)
  | number width => do
    let (n?, r) ← r.number width
    return (.number n?, r)
  | signed width => do
    let (n, r) ← r.signed width
    return (.signed n, r)
  | text length => do
    let (octets, r) ← r.text length
    return (.octets octets, r)

inductive Forms : Query → Bits → Content → Prop where
  | bits (x : Bits) : Forms (.bits x.length) x (.bits (toNat x))
  | missing (x : Bits) (positive : 0 < x.length) (ones : x = List.replicate x.length true) :
      Forms (.number x.length) x (.number none)
  | present (x : Bits) (other : 0 < x.length → x ≠ List.replicate x.length true) :
      Forms (.number x.length) x (.number (some (toNat x)))
  | positive (magnitude : Bits) :
      Forms (.signed (magnitude.length + 1)) (false :: magnitude) (.signed (toNat magnitude))
  | negative (magnitude : Bits) :
      Forms (.signed (magnitude.length + 1)) (true :: magnitude) (.signed (-toNat magnitude))
  | text (octets : Octets) :
      Forms (.text octets.length) (Bits.ofOctets octets) (.octets octets)

end Query

structure Exchange where
  query : Query
  before : Reader
  outcome : Except Error Content
  after : Reader

namespace Reader

end Reader

namespace Exchange

def bits (made : Exchange) : Bits :=
  match made.outcome with
  | .ok _ => made.before.rest.take made.query.width
  | .error _ => []

def write (w : Writer) (made : Exchange) : Except Error Writer :=
  match made.query, made.outcome with
  | .bits width, .ok (.bits n) => w.number width n
  | .text length, .ok (.octets octets) => w.text length octets
  | _, _ => .ok w

/-- The call is one to a cursor on the bits of the octets. -/
structure Follows (octets : Octets) (made : Exchange) : Prop where
  total_before : made.before.position + made.before.remaining = 8 * octets.length
  total_after : made.after.position + made.after.remaining = 8 * octets.length
  fails_iff : (∃ e, made.outcome = .error e) ↔
    ¬made.query.isSupported ∨ made.before.remaining < made.query.width
  refused : ∀ e, made.outcome = .error e →
    made.after = made.before ∧
      e.kind = if made.query.isSupported then .truncated else .consistency
  got : ∀ content, made.outcome = .ok content →
    made.after.position = made.before.position + made.query.width ∧
      made.query.Forms (((Bits.ofOctets octets).drop made.before.position).take made.query.width)
        content

end Exchange

/-! ## One call -/

theorem toNat_eq_missing_iff {x : Bits} (narrow : x.length ≤ 64) :
    toNat x = missing x.length ↔ x = List.replicate x.length true := by
  rw [← ofNat_missing narrow]
  constructor
  · intro same
    rw [← same, ofNat_toNat]
  · intro same
    rw [same, length_ofNat, toNat_ofNat_of_le narrow (Nat.le_refl _)]

namespace Query

variable {query : Query} {x : Bits} {content : Content} {r r' : Reader}

theorem Forms.length_eq (forms : query.Forms x content) : x.length = query.width := by
  cases forms <;> simp [width]

theorem forms_number_iff {width : Nat} (narrow : width ≤ 64) :
    Forms (.number width) x content ↔ x.length = width ∧ content = .number (number? x) := by
  constructor
  · intro forms
    cases forms with
    | missing _ positive ones =>
        have all := (toNat_eq_missing_iff narrow).2 ones
        simp [number?, positive, all]
    | present _ other =>
        have some : ¬(0 < x.length ∧ toNat x = Bits.missing x.length) :=
          fun all => other all.1 ((toNat_eq_missing_iff narrow).1 all.2)
        simp [number?, some]
  · rintro ⟨rfl, rfl⟩
    unfold number?
    split
    next all => exact .missing x all.1 ((toNat_eq_missing_iff narrow).1 all.2)
    next some =>
      exact .present x fun positive ones => some ⟨positive, (toNat_eq_missing_iff narrow).2 ones⟩

theorem forms_signed_iff {width : Nat} (positive : 0 < width) :
    Forms (.signed width) x content ↔ x.length = width ∧ content = .signed (Bits.signed x) := by
  constructor
  · intro forms
    cases forms <;> simp [Bits.signed]
  · rintro ⟨rfl, rfl⟩
    cases x with
    | nil => cases positive
    | cons sign magnitude =>
        cases sign
        · exact .positive magnitude
        · exact .negative magnitude

theorem read_ok_iff : query.read r = .ok (content, r') ↔
    query.isSupported ∧ ∃ x, query.Forms x content ∧ r.Takes x r' := by
  cases query with
  | bits width =>
      simp only [read, bind_eq_ok, Prod.exists, Reader.bits_ok_iff, pure_eq_ok, Prod.mk.injEq,
        isSupported, decide_eq_true_eq]
      constructor
      · rintro ⟨n, _, ⟨narrow, x, rfl, rfl, taken⟩, rfl, rfl⟩
        exact ⟨narrow, x, .bits x, taken⟩
      · rintro ⟨narrow, x, forms, taken⟩
        cases forms
        exact ⟨_, r', ⟨narrow, x, rfl, rfl, taken⟩, rfl, rfl⟩
  | number width =>
      simp only [read, bind_eq_ok, Prod.exists, Reader.number_ok_iff, pure_eq_ok, Prod.mk.injEq,
        isSupported, decide_eq_true_eq]
      constructor
      · rintro ⟨n?, _, ⟨narrow, x, long, rfl, taken⟩, rfl, rfl⟩
        exact ⟨narrow, x, (forms_number_iff narrow).2 ⟨long, rfl⟩, taken⟩
      · rintro ⟨narrow, x, forms, taken⟩
        obtain ⟨long, rfl⟩ := (forms_number_iff narrow).1 forms
        exact ⟨_, r', ⟨narrow, x, long, rfl, taken⟩, rfl, rfl⟩
  | signed width =>
      simp only [read, bind_eq_ok, Prod.exists, Reader.signed_ok_iff, pure_eq_ok, Prod.mk.injEq,
        isSupported, Bool.and_eq_true, decide_eq_true_eq]
      constructor
      · rintro ⟨n, _, ⟨wide, narrow, x, long, rfl, taken⟩, rfl, rfl⟩
        exact ⟨⟨wide, narrow⟩, x, (forms_signed_iff (by omega)).2 ⟨long, rfl⟩, taken⟩
      · rintro ⟨⟨wide, narrow⟩, x, forms, taken⟩
        obtain ⟨long, rfl⟩ := (forms_signed_iff (by omega)).1 forms
        exact ⟨_, r', ⟨wide, narrow, x, long, rfl, taken⟩, rfl, rfl⟩
  | text length =>
      simp only [read, bind_eq_ok, Prod.exists, Reader.text_ok_iff, pure_eq_ok, Prod.mk.injEq,
        isSupported, true_and]
      constructor
      · rintro ⟨octets, _, ⟨rfl, taken⟩, rfl, rfl⟩
        exact ⟨_, .text octets, taken⟩
      · rintro ⟨x, forms, taken⟩
        cases forms
        exact ⟨_, r', ⟨rfl, taken⟩, rfl, rfl⟩

end Query

namespace Reader

variable {r : Reader} {e : Error}

theorem bits_eq_error_iff {width : Nat} : r.bits width = .error e ↔
    64 < width ∧ e = .unreadableWidth width ∨
      width ≤ 64 ∧ r.remaining < width ∧ e = .truncatedBits width r.position r.remaining := by
  have := r.position_le
  unfold bits
  split
  case isTrue empty => simp [empty]
  split
  case isTrue wide => simp [wide, Nat.not_le.2 wide, eq_comm]
  split
  case isTrue wide inside =>
    have enough : width ≤ r.remaining := by
      unfold remaining size
      omega
    simp [wide, Nat.not_lt.2 enough]
  case isFalse wide beyond =>
    have short : r.remaining < width := by
      unfold remaining size
      omega
    simp [short, Nat.le_of_not_lt wide, wide, eq_comm]

theorem number_eq_error_iff {width : Nat} : r.number width = .error e ↔ r.bits width = .error e := by
  simp [number, bind_eq_error_iff, pure, Except.pure]

theorem signed_eq_error_iff {width : Nat} : r.signed width = .error e ↔
    width < 2 ∧ e = .narrowSigned width ∨ 2 ≤ width ∧ r.bits width = .error e := by
  unfold signed
  split
  case isTrue narrow => simp [narrow, Nat.not_le.2 narrow, eq_comm]
  case isFalse wide =>
    simp [bind_eq_error_iff, pure, Except.pure, wide, Nat.le_of_not_lt wide]

theorem text_eq_error_iff {count : Nat} : r.text count = .error e ↔
    r.remaining < 8 * count ∧ e = .truncatedBits (8 * count) r.position r.remaining := by
  have := r.position_le
  unfold text
  split
  case isTrue inside =>
    have enough : 8 * count ≤ r.remaining := by
      unfold remaining size
      omega
    simp [Nat.not_lt.2 enough]
  case isFalse beyond =>
    have short : r.remaining < 8 * count := by
      unfold remaining size
      omega
    simp [short, eq_comm]

end Reader

namespace Query

variable {query : Query} {r : Reader} {e : Error}

/-- A width that is not supported is complained about before any bits are counted. -/
theorem read_eq_error_iff : query.read r = .error e ↔
    (¬query.isSupported ∧ e = match query with
      | .signed width => if width < 2 then .narrowSigned width else .unreadableWidth width
      | _ => .unreadableWidth query.width) ∨
    query.isSupported ∧ r.remaining < query.width ∧
      e = .truncatedBits query.width r.position r.remaining := by
  cases query with
  | bits width =>
      simp [read, bind_eq_error_iff, pure, Except.pure, Reader.bits_eq_error_iff, isSupported,
        Query.width]
  | number width =>
      simp [read, bind_eq_error_iff, pure, Except.pure, Reader.number_eq_error_iff,
        Reader.bits_eq_error_iff, isSupported, Query.width]
  | signed width =>
      by_cases narrow : width < 2
      · simp [read, bind_eq_error_iff, pure, Except.pure, Reader.signed_eq_error_iff, isSupported,
          narrow, Nat.not_le.2 narrow]
      · simp [read, bind_eq_error_iff, pure, Except.pure, Reader.signed_eq_error_iff,
          Reader.bits_eq_error_iff, isSupported, Query.width, narrow, Nat.le_of_not_lt narrow]
  | text length =>
      simp [read, bind_eq_error_iff, pure, Except.pure, Reader.text_eq_error_iff, isSupported,
        Query.width]

theorem fails_iff :
    (∃ e, query.read r = .error e) ↔ ¬query.isSupported ∨ r.remaining < query.width := by
  simp only [read_eq_error_iff, exists_or, exists_and_left, exists_eq, and_true]
  by_cases supported : query.isSupported <;> simp [supported]

end Query

namespace Reader

variable {r : Reader} {query : Query}

end Reader

namespace Reader

variable {r r' : Reader} {queries : List Query} {made front back : List Exchange} {one : Exchange}

end Reader

end Bufr.Bits
