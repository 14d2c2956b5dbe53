import Mathlib.Data.List.Basic
import Mathlib.Data.Set.Function
import ReportRelay.Bytes.Signed
import ReportRelay.Proofs.Bytes.BigEndian
import ReportRelay.Proofs.Except

/-!
# Integers of a fixed number of bytes, written and read back

An integer has a signed form in a width exactly when it lies between the bounds of the width, and an unsigned one
exactly when it is not negative and below the span. Either form is as long as the width, and reading gives the integer
back. Every byte string of that length is the signed form of one integer.
-/

namespace ReportRelay.Signed

variable {width : Nat} {value : Int} {bytes : Bytes}

theorem bound_pos (width : Nat) : 0 < bound width :=
  Int.pow_pos (by decide)

theorem span_eq (h : width ≠ 0) : span width = 2 * bound width := by
  have hbits : 8 * width = 8 * width - 1 + 1 := by omega
  unfold span bound
  rw [hbits, Int.pow_succ, Nat.add_sub_cancel, Int.mul_comm]

theorem span_eq_pow (width : Nat) : span width = ((256 ^ width : Nat) : Int) := by
  unfold span
  rw [Int.pow_mul]
  exact (Int.natCast_pow 256 width).symm

/-- The integer has a form with a sign in the width. -/
def Fits (width : Nat) (value : Int) : Prop :=
  -bound width ≤ value ∧ value < bound width

/-- The bytes of an integer that fits. -/
def form (width : Nat) (value : Int) : Bytes :=
  .bigEndian width (value % span width).toNat

theorem encode_eq_ok_iff (h : width ≠ 0) :
    encode width value = .ok bytes ↔ Fits width value ∧ bytes = form width value := by
  unfold encode checkWidth Fits form
  rw [if_neg h]
  change (if _ then Except.ok _ else Except.error _) = Except.ok bytes ↔ _
  split
  next hfits => simp [hfits, eq_comm]
  next hfits => simp [hfits]

theorem encodeUnsigned_eq_ok_iff : encodeUnsigned width value = .ok bytes ↔
    (0 ≤ value ∧ value < span width) ∧ bytes = .bigEndian width value.toNat := by
  unfold encodeUnsigned
  split
  next hneg => simp [Int.not_le.2 hneg]
  next hneg =>
    split
    next hlt => simp [hlt, Int.not_lt.1 hneg, eq_comm]
    next hlt => simp [hlt]

@[simp] theorem length_form (width : Nat) (value : Int) : (form width value).length = width :=
  Bytes.length_bigEndian _ _

theorem toNat_bigEndian_of_lt (hnonneg : 0 ≤ value) (hlt : value < span width) :
    ((Bytes.bigEndian width value.toNat).toNat : Int) = value := by
  rw [span_eq_pow] at hlt
  rw [Bytes.toNat_bigEndian, Nat.mod_eq_of_lt (by omega), Int.toNat_of_nonneg hnonneg]

theorem decode_form (h : width ≠ 0) (hfits : Fits width value) : decode width (form width value) = .ok value := by
  obtain ⟨hlow, hhigh⟩ := hfits
  have hbound := bound_pos width
  have hspan := span_eq h
  have hnonneg : 0 ≤ value % span width := Int.emod_nonneg _ (by omega)
  have hlt : value % span width < span width := Int.emod_lt_of_pos _ (by omega)
  have hvalue : ofBytes (form width value) = value := by
    unfold ofBytes
    rw [length_form, form, toNat_bigEndian_of_lt hnonneg hlt]
    dsimp only
    -- a negative integer is written as what it is short of the span
    rcases Int.lt_or_le value 0 with hneg | hneg
    · have hmod : value % span width = value + span width := by
        rw [← Int.add_emod_right, Int.emod_eq_of_lt (by omega) (by omega)]
      split <;> omega
    · have hmod : value % span width = value := Int.emod_eq_of_lt hneg (by omega)
      split <;> omega
  unfold decode checkWidth
  rw [if_neg h, length_form, if_pos rfl, hvalue]
  rfl

/-! ## Reading first -/

theorem decode_eq_ok_iff (h : width ≠ 0) :
    decode width bytes = .ok value ↔ bytes.length = width ∧ value = ofBytes bytes := by
  unfold decode checkWidth
  rw [if_neg h]
  change (if _ then Except.ok _ else Except.error _) = Except.ok value ↔ _
  split
  next hlength => simp [hlength, eq_comm]
  next hlength => simp [hlength]

theorem toNat_lt_span (bytes : Bytes) : (bytes.toNat : Int) < span bytes.length := by
  rw [span_eq_pow]
  exact Int.ofNat_lt.2 (Bytes.toNat_lt bytes)

theorem fits_ofBytes (h : bytes.length ≠ 0) : Fits bytes.length (ofBytes bytes) := by
  have hspan := span_eq h
  have hlt := toNat_lt_span bytes
  unfold Fits ofBytes
  dsimp only
  split <;> omega

theorem form_ofBytes (bytes : Bytes) : form bytes.length (ofBytes bytes) = bytes := by
  have hlt := toNat_lt_span bytes
  have hresidue : ofBytes bytes % span bytes.length = bytes.toNat := by
    unfold ofBytes
    dsimp only
    split
    · exact Int.emod_eq_of_lt (by omega) hlt
    · rw [Int.sub_emod_right, Int.emod_eq_of_lt (by omega) hlt]
  rw [form, hresidue, Int.toNat_natCast, Bytes.bigEndian_toNat]

def twosComplement (bytes : Bytes) : Int :=
  (BitVec.ofNat (8 * bytes.length) (Nat.ofDigits 256 (bytes.reverse.map UInt8.toNat))).toInt

theorem ofBytes_eq_twosComplement (bytes : Bytes) : ofBytes bytes = twosComplement bytes := by
  have hlt := toNat_lt_span bytes
  have hspan : span bytes.length = ((2 ^ (8 * bytes.length) : Nat) : Int) := (Int.natCast_pow 2 _).symm
  have hmod : bytes.toNat % 2 ^ (8 * bytes.length) = bytes.toNat := Nat.mod_eq_of_lt (by omega)
  rw [twosComplement, Bytes.ofDigits_eq_toNat, BitVec.toInt_eq_toNat_cond, BitVec.toNat_ofNat, hmod, ← hspan]
  unfold ofBytes
  dsimp only
  -- without bytes the bound is no half of the span
  rcases Nat.eq_zero_or_pos bytes.length with hnone | hsome
  · obtain rfl := List.length_eq_zero_iff.1 hnone
    rfl
  · have hbound := span_eq (Nat.ne_of_gt hsome)
    split <;> split <;> omega

example : twosComplement [255, 254] = -2 := by decide

/-- What is read is what was written. -/
theorem decode_eq_ok_iff_encode_eq_ok : decode width bytes = .ok value ↔ encode width value = .ok bytes := by
  rcases Nat.eq_zero_or_pos width with rfl | hpos
  · constructor <;> intro h <;> cases h
  · have hwidth : width ≠ 0 := by omega
    rw [decode_eq_ok_iff hwidth, encode_eq_ok_iff hwidth]
    constructor
    · rintro ⟨rfl, rfl⟩
      exact ⟨fits_ofBytes hwidth, (form_ofBytes bytes).symm⟩
    · rintro ⟨hfits, rfl⟩
      exact (decode_eq_ok_iff hwidth).1 (decode_form hwidth hfits)

/-! ## Exactness -/

/-- The forms of a width leave out no byte string and no integer in range. -/
structure Exact (width : Nat) : Prop where
  bijective : width ≠ 0 → Set.BijOn (decode width) {bytes | bytes.length = width}
    (Except.ok '' {value | -2 ^ (8 * width - 1) ≤ value ∧ value < 2 ^ (8 * width - 1)})
  inverse : ∀ bytes value, decode width bytes = .ok value ↔ encode width value = .ok bytes
  unreadable : ∀ bytes, (∃ e, decode width bytes = .error e) ↔ width = 0 ∨ bytes.length ≠ width
  unwritable : ∀ value, (∃ e, encode width value = .error e) ↔
    width = 0 ∨ value < -2 ^ (8 * width - 1) ∨ 2 ^ (8 * width - 1) ≤ value
  unsigned : ∀ value, (∃ bytes, encodeUnsigned width value = .ok bytes) ↔ 0 ≤ value ∧ value < 2 ^ (8 * width)
  denotes : ∀ value bytes, encodeUnsigned width value = .ok bytes →
    bytes.length = width ∧ ((Nat.ofDigits 256 (bytes.reverse.map UInt8.toNat) : Nat) : Int) = value
  agrees : width ≠ 0 → ∀ value, 0 ≤ value → value < 2 ^ (8 * width - 1) →
    encodeUnsigned width value = encode width value

theorem bijOn_decode (h : width ≠ 0) : Set.BijOn (decode width) {bytes | bytes.length = width}
    (Except.ok '' {value | -2 ^ (8 * width - 1) ≤ value ∧ value < 2 ^ (8 * width - 1)}) := by
  constructor
  · rintro bytes rfl
    exact ⟨ofBytes bytes, fits_ofBytes h, ((decode_eq_ok_iff h).2 ⟨rfl, rfl⟩).symm⟩
  constructor
  · intro bytes hbytes other _ hsame
    have hread := (decode_eq_ok_iff h).2 ⟨hbytes, rfl⟩
    have hwritten := decode_eq_ok_iff_encode_eq_ok.1 hread
    rw [hsame, decode_eq_ok_iff_encode_eq_ok, hwritten] at hread
    exact Except.ok.inj hread
  · rintro _ ⟨value, hfits, rfl⟩
    exact ⟨form width value, length_form width value, decode_form h hfits⟩

theorem exists_decode_error_iff :
    (∃ e, decode width bytes = .error e) ↔ width = 0 ∨ bytes.length ≠ width := by
  by_cases h : width = 0
  · subst h
    exact iff_of_true ⟨_, rfl⟩ (.inl rfl)
  · simp [exists_error_iff, decode_eq_ok_iff h, h]

theorem exists_encode_error_iff :
    (∃ e, encode width value = .error e) ↔ width = 0 ∨ value < -bound width ∨ bound width ≤ value := by
  by_cases h : width = 0
  · subst h
    exact iff_of_true ⟨_, rfl⟩ (.inl rfl)
  · simp only [exists_error_iff, encode_eq_ok_iff h, Fits, h, false_or]
    constructor
    · intro hnone
      by_contra hin
      exact hnone ⟨_, by omega, rfl⟩
    · rintro hout ⟨_, hin, _⟩
      omega

/-- An integer that both forms have room for has the same form with a sign and without one. -/
theorem encodeUnsigned_eq_encode (h : width ≠ 0) (hnonneg : 0 ≤ value) (hlt : value < bound width) :
    encodeUnsigned width value = encode width value := by
  have hspan := span_eq h
  have hform : form width value = .bigEndian width value.toNat := by
    rw [form, Int.emod_eq_of_lt hnonneg (by omega)]
  have hunsigned : encodeUnsigned width value = .ok (form width value) :=
    encodeUnsigned_eq_ok_iff.2 ⟨by omega, hform⟩
  have hsigned : encode width value = .ok (form width value) :=
    (encode_eq_ok_iff h).2 ⟨⟨by omega, hlt⟩, rfl⟩
  rw [hunsigned, hsigned]

theorem forms_exact (width : Nat) : Exact width := by
  constructor
  case bijective => exact bijOn_decode
  case inverse => exact fun _ _ => decode_eq_ok_iff_encode_eq_ok
  case unreadable => exact fun _ => exists_decode_error_iff
  case unwritable => exact fun _ => exists_encode_error_iff
  case unsigned =>
    intro value
    simp only [encodeUnsigned_eq_ok_iff, exists_and_left, exists_eq, and_true]
    rfl
  case denotes =>
    intro value bytes h
    obtain ⟨⟨hnonneg, hlt⟩, rfl⟩ := encodeUnsigned_eq_ok_iff.1 h
    constructor
    · exact Bytes.length_bigEndian width value.toNat
    · rw [Bytes.ofDigits_eq_toNat, toNat_bigEndian_of_lt hnonneg hlt]
  case agrees => exact fun h _ hnonneg hlt => encodeUnsigned_eq_encode h hnonneg hlt

/-- Zero is below half the span of no bytes at all, and there it has a form without a sign but none with a sign. -/
theorem not_agrees_of_no_width : ¬∀ (width : Nat) (value : Int), 0 ≤ value → 2 * value < 2 ^ (8 * width) →
    encodeUnsigned width value = encode width value := by
  intro hagrees
  have hzero := hagrees 0 0 (by decide) (by decide)
  cases hzero

end ReportRelay.Signed
