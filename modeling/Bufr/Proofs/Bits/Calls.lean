import Bufr.Proofs.Bits.Cursor
import Mathlib.Algebra.GroupWithZero.Nat

/-!
Whole programs of calls. A writer performs the calls whose data fit their fields, wherever it stands,
and the other ones leave nothing behind; reading the fields in the same order gives the data back.
-/

namespace Bufr.Bits

inductive Call where
  | bits (width n : Nat)
  | number (width : Nat) (n? : Option Nat)
  | signed (width : Nat) (n : Int)
  | text (length : Nat) (octets : Octets)
  | missingText (length : Nat)
deriving DecidableEq

inductive Content where
  | bits (n : Nat)
  | number (n? : Option Nat)
  | signed (n : Int)
  | octets (octets : Octets)
deriving DecidableEq

namespace Call

def write (w : Writer) : Call → Except Error Writer
  | bits width n => w.number width n
  | number width n? => w.number? width n?
  | signed width n => w.signed width n
  | text length octets => w.text length octets
  | missingText length => .ok (w.missingText length)

def read (r : Reader) : Call → Except Error (Content × Reader)
  | bits width _ => do
    let (n, r) ← r.bits width
    return (.bits n, r)
  | number width _ => do
    let (n?, r) ← r.number width
    return (.number n?, r)
  | signed width _ => do
    let (n, r) ← r.signed width
    return (.signed n, r)
  | text length _ | missingText length => do
    let (octets, r) ← r.text length
    return (.octets octets, r)

/-- What has a place in its field. All ones are the place of a missing number only. -/
def fits : Call → Bool
  | bits width n => width ≤ 64 && n ≤ missing width
  | number width none => width ≤ 64
  | number width (some n) => width ≤ 64 && (if width = 0 then n = 0 else n < missing width)
  | signed width n => 2 ≤ width && width ≤ 64 && n.natAbs ≤ missing (width - 1)
  | text length _ => length ≤ Writer.maxCapacity
  | missingText _ => true

def width : Call → Nat
  | bits width _ | number width _ | signed width _ => width
  | text length _ | missingText length => 8 * length

/-- What is read back. Without any bits a number is zero and not missing. -/
def content : Call → Content
  | bits _ n => .bits n
  | number width n? => .number (if width = 0 then some 0 else n?)
  | signed _ n => .signed n
  | text length octets => .octets (Writer.padded length octets)
  | missingText length => .octets (List.replicate length 0xff)

def field : Call → Bits
  | bits width n => ofNat width n
  | number width n? => ofNumber? width n?
  | signed width n => ofSigned width n
  | text length octets => Bits.ofOctets (Writer.padded length octets)
  | missingText length => Bits.ofOctets (List.replicate length 0xff)

end Call

/-- The calls in turn; one that fails leaves the writer as it is. Those that do not are listed. -/
def Writer.perform (w : Writer) : List Call → List Call × Writer
  | [] => ([], w)
  | call :: calls =>
    match call.write w with
    | .error _ => w.perform calls
    | .ok w =>
      let (performed, w) := w.perform calls
      (call :: performed, w)

def Reader.contents (r : Reader) : List Call → Except Error (List Content × Reader)
  | [] => .ok ([], r)
  | call :: calls => do
    let (content, r) ← call.read r
    let (contents, r) ← r.contents calls
    return (content :: contents, r)

namespace Call

variable {call : Call} {calls : List Call} {w w' : Writer} {r r' : Reader}

theorem fits_number_iff {width n : Nat} :
    (number width (some n)).fits ↔ width ≤ 64 ∧ Fits width (some n) := by
  simp only [fits, Bool.and_eq_true, decide_eq_true_eq, Fits, Option.some.injEq, forall_eq']
  refine and_congr_right fun _ => ?_
  split
  next empty =>
    subst empty
    simp [missing]
  next =>
    rw [decide_eq_true_eq]
    omega

theorem write_ok_iff : call.write w = .ok w' ↔ call.fits ∧ w' = w.push call.field := by
  cases call with
  | bits width n => simp [write, fits, field, Writer.number_ok_iff, and_assoc]
  | number width n? =>
      cases n? with
      | none => simp [write, fits, field, Writer.number?_ok_iff, Fits]
      | some n => simp only [write, field, Writer.number?_ok_iff, fits_number_iff, and_assoc]
  | signed width n => simp [write, fits, field, Writer.signed_ok_iff, and_assoc]
  | text length octets => simp [write, fits, field, Writer.text_ok_iff]
  | missingText length => simp [write, fits, field, Writer.missingText_eq, eq_comm]

theorem length_field (fits : call.fits) : call.field.length = call.width := by
  cases call with
  | bits width n => exact length_ofNat width n
  | number width n? => exact length_ofNumber? width n?
  | signed width n =>
      simp only [Call.fits, Bool.and_eq_true, decide_eq_true_eq] at fits
      exact length_ofSigned n fits.1.1
  | text length octets => rw [field, length_ofOctets, Writer.length_padded, width]
  | missingText length => rw [field, length_ofOctets, List.length_replicate, width]

theorem read_of_takes (fits : call.fits) (taken : r.Takes call.field r') :
    call.read r = .ok (call.content, r') := by
  have long := length_field fits
  cases call with
  | bits width n =>
      simp only [Call.fits, Bool.and_eq_true, decide_eq_true_eq] at fits
      have got : r.bits width = .ok (n, r') :=
        Reader.bits_ok_iff.2 ⟨fits.1, _, long, toNat_ofNat_of_le fits.1 fits.2, taken⟩
      rw [read, got]
      rfl
  | number width n? =>
      obtain ⟨narrow, known⟩ : width ≤ 64 ∧ Fits width n? := by
        cases n? with
        | none => exact ⟨by simpa [Call.fits] using fits, nofun⟩
        | some n => exact fits_number_iff.1 fits
      have value : number? (ofNumber? width n?) = if width = 0 then some 0 else n? := by
        split
        next empty =>
          subst empty
          rfl
        next wide => exact number?_ofNumber? narrow (Nat.pos_of_ne_zero wide) known
      have got : r.number width = .ok (if width = 0 then some 0 else n?, r') :=
        Reader.number_ok_iff.2 ⟨narrow, _, long, value, taken⟩
      rw [read, got]
      rfl
  | signed width n =>
      simp only [Call.fits, Bool.and_eq_true, decide_eq_true_eq] at fits
      have got : r.signed width = .ok (n, r') :=
        Reader.signed_ok_iff.2 ⟨fits.1.1, fits.1.2, _, long, signed_ofSigned fits.1.2 fits.2, taken⟩
      rw [read, got]
      rfl
  | text length octets =>
      have got : r.text length = .ok (Writer.padded length octets, r') :=
        Reader.text_ok_iff.2 ⟨Writer.length_padded length octets, taken⟩
      rw [read, got]
      rfl
  | missingText length =>
      have got : r.text length = .ok (List.replicate length 0xff, r') :=
        Reader.text_ok_iff.2 ⟨List.length_replicate, taken⟩
      rw [read, got]
      rfl

end Call

/-! ## Programs -/

variable {calls : List Call}

theorem Writer.perform_eq (w : Writer) (calls : List Call) :
    w.perform calls = (calls.filter Call.fits, w.push ((calls.filter Call.fits).flatMap Call.field)) := by
  induction calls generalizing w with
  | nil => rfl
  | cons call calls ih =>
      rw [perform, List.filter_cons]
      cases written : call.write w with
      | error e =>
          have unfit : ¬call.fits := by
            intro fits
            cases written.symm.trans (Call.write_ok_iff.2 ⟨fits, rfl⟩)
          rw [if_neg unfit]
          exact ih w
      | ok w' =>
          obtain ⟨fits, rfl⟩ := Call.write_ok_iff.1 written
          simp only [if_pos fits, ih, List.flatMap_cons, push_append]

theorem Writer.foldlM_write (w : Writer) (fit : ∀ call ∈ calls, call.fits) :
    calls.foldlM Call.write w = .ok (w.push (calls.flatMap Call.field)) := by
  induction calls generalizing w with
  | nil => rfl
  | cons call calls ih =>
      obtain ⟨first, others⟩ := List.forall_mem_cons.1 fit
      rw [List.foldlM_cons, Call.write_ok_iff.2 ⟨first, rfl⟩, ok_bind, ih _ others,
        List.flatMap_cons, push_append]

theorem length_flatMap_field (fit : ∀ call ∈ calls, call.fits) :
    (calls.flatMap Call.field).length = (calls.map Call.width).sum := by
  rw [List.length_flatMap]
  exact congrArg List.sum (List.map_congr_left fun call mem => Call.length_field (fit call mem))

theorem Reader.contents_of_takes {r r' : Reader} (fit : ∀ call ∈ calls, call.fits)
    (taken : r.Takes (calls.flatMap Call.field) r') :
    r.contents calls = .ok (calls.map Call.content, r') := by
  induction calls generalizing r with
  | nil =>
      rw [taken.eq_of_nil]
      rfl
  | cons call calls ih =>
      obtain ⟨first, others⟩ := List.forall_mem_cons.1 fit
      rw [List.flatMap_cons] at taken
      obtain ⟨r₁, front, back⟩ := taken.split
      rw [contents, Call.read_of_takes first front, ok_bind]
      simp only
      rw [ih others back]
      rfl

/-- Just the calls that fit are performed. Their fields take just the bits written, they are read back,
and zeros fill up the last octet. -/
theorem contents_of_perform (calls : List Call) :
    ∃ performed w, Writer.empty.perform calls = (performed, w) ∧
      performed = calls.filter Call.fits ∧
      performed.foldlM Call.write Writer.empty = .ok w ∧
      w.written = (performed.map Call.width).sum ∧
      ∃ r, (Reader.ofOctets w.finish).contents performed = .ok (performed.map Call.content, r) ∧
        r.remaining < 8 ∧ r.rest = List.replicate r.remaining false := by
  have fit : ∀ call ∈ calls.filter Call.fits, call.fits := fun _ mem => (List.mem_filter.1 mem).2
  have filled := Writer.ofOctets_finish (Writer.empty.push ((calls.filter Call.fits).flatMap Call.field))
  rw [Writer.bits_push, Writer.bits_empty, List.nil_append, ← Reader.rest_ofOctets] at filled
  obtain ⟨r, taken⟩ := Reader.exists_takes filled
  refine ⟨_, _, Writer.perform_eq _ calls, rfl, Writer.foldlM_write _ fit, ?_, r,
    Reader.contents_of_takes fit taken, ?_⟩
  · rw [Writer.written_push, length_flatMap_field fit]
    exact Nat.zero_add _
  · have left := taken.rest
    rw [filled, List.append_cancel_left_eq] at left
    have count := congrArg List.length left
    rw [List.length_replicate, Reader.length_rest] at count
    rw [← left, ← count]
    exact ⟨Nat.mod_lt _ (by decide), rfl⟩

end Bufr.Bits
