import ReportRelay.Proofs.Bytes.Text
import ReportRelay.Proofs.Except
import ReportRelay.Text.Hex

/-!
# What hexadecimal text spells

Reading takes digits of either case, and nothing else: the texts that are read as some bytes are those that are the
writing of these bytes once they are put in lower case.
-/

namespace ReportRelay

/-! ## Lower case -/

namespace Bytes

/-- A byte in lower case, if it is a capital letter. -/
def lower (b : UInt8) : UInt8 :=
  if 65 ≤ b.toNat ∧ b.toNat ≤ 90 then b + 32 else b

theorem lower_of_le {b : UInt8} (h : 128 ≤ b) : lower b = b := by
  have hb : 128 ≤ b.toNat := h
  exact if_neg (by omega)

theorem utf8EncodeChar_toLower_of_lt : ∀ n < 128,
    String.utf8EncodeChar (Char.ofNat n).toLower = (String.utf8EncodeChar (Char.ofNat n)).map lower := by
  decide +kernel

theorem toLower_of_le {c : Char} (h : 128 ≤ c.toNat) : c.toLower = c := by
  have hc : 128 ≤ c.val.toNat := h
  refine dif_neg fun hcapital => ?_
  have hle : c.val.toNat ≤ 90 := hcapital.2
  omega

theorem utf8EncodeChar_toLower (c : Char) :
    String.utf8EncodeChar c.toLower = (String.utf8EncodeChar c).map lower := by
  by_cases h : c.toNat < 128
  · have hlower := utf8EncodeChar_toLower_of_lt c.toNat h
    rwa [Char.ofNat_toNat] at hlower
  · have hle := Nat.not_lt.1 h
    rw [toLower_of_le hle]
    have hsame : (String.utf8EncodeChar c).map lower = (String.utf8EncodeChar c).map id :=
      List.map_congr_left fun b hb => lower_of_le (le_of_mem_utf8EncodeChar hle b hb)
    rw [hsame, List.map_id]

theorem ofText_toLower (text : String) : ofText text.toLower = (ofText text).map lower := by
  rw [ofText_eq_flatMap, ofText_eq_flatMap, List.map_flatMap]
  have htoList : text.toLower.toList = text.toList.map Char.toLower := String.toList_map
  rw [htoList, List.flatMap_map]
  exact congrArg (List.flatMap · text.toList) (funext utf8EncodeChar_toLower)

end Bytes

namespace Hex

/-! ## Digits -/

theorem value?_ofNat_iff : ∀ k < 256, ∀ n < 16,
    (value? (UInt8.ofNat k) = some n ↔ Bytes.lower (UInt8.ofNat k) = digit n) := by
  decide +kernel

theorem value?_lt {b : UInt8} {n : Nat} (h : value? b = some n) : n < 16 := by
  unfold value? at h
  dsimp only at h
  split at h
  · cases h
    omega
  split at h
  · cases h
    omega
  split at h
  · cases h
    omega
  · cases h

theorem value?_eq_some_iff {b : UInt8} {n : Nat} : value? b = some n ↔ n < 16 ∧ Bytes.lower b = digit n := by
  have hiff (hn : n < 16) : value? b = some n ↔ Bytes.lower b = digit n := by
    have hb := value?_ofNat_iff b.toNat b.toNat_lt n hn
    rwa [UInt8.ofNat_toNat] at hb
  constructor
  · intro h
    exact ⟨value?_lt h, (hiff (value?_lt h)).1 h⟩
  · rintro ⟨hn, h⟩
    exact (hiff hn).2 h

theorem value?_digit {n : Nat} (h : n < 16) : value? (digit n) = some n := by
  revert n
  decide

theorem digit_injective {m n : Nat} (hm : m < 16) (hn : n < 16) (h : digit m = digit n) : m = n := by
  have hvalue := value?_digit hm
  rw [h, value?_digit hn] at hvalue
  exact (Option.some.inj hvalue).symm

/-! ## Bytes -/

theorem encodeBytes_cons (b : UInt8) (bytes : Bytes) :
    encodeBytes (b :: bytes) = digit (b.toNat / 16) :: digit (b.toNat % 16) :: encodeBytes bytes := rfl

theorem length_encodeBytes (bytes : Bytes) : (encodeBytes bytes).length = 2 * bytes.length := by
  induction bytes with
  | nil => rfl
  | cons b bytes ih =>
    rw [encodeBytes_cons, List.length_cons, List.length_cons, ih, List.length_cons]
    omega

theorem lower_digit {n : Nat} (h : n < 16) : Bytes.lower (digit n) = digit n := by
  revert n
  decide

theorem map_lower_encodeBytes (bytes : Bytes) : (encodeBytes bytes).map Bytes.lower = encodeBytes bytes := by
  induction bytes with
  | nil => rfl
  | cons b bytes ih =>
    have hb := b.toNat_lt
    rw [encodeBytes_cons, List.map_cons, List.map_cons, ih, lower_digit (by omega), lower_digit (by omega)]

theorem digit_lt {n : Nat} (h : n < 16) : digit n < 128 := by
  revert n
  decide

theorem encodeBytes_lt (bytes : Bytes) : ∀ b ∈ encodeBytes bytes, b < 128 := by
  induction bytes with
  | nil => exact List.forall_mem_nil _
  | cons b bytes ih =>
    have hb := b.toNat_lt
    rw [encodeBytes_cons]
    exact List.forall_mem_cons.2 ⟨digit_lt (by omega), List.forall_mem_cons.2 ⟨digit_lt (by omega), ih⟩⟩

/-- Two digits are the writing of a byte exactly when they are the two halves of it. -/
theorem digits_eq_iff {b : UInt8} {high low : Nat} (hhigh : high < 16) (hlow : low < 16) :
    UInt8.ofNat (16 * high + low) = b ↔ digit high = digit (b.toNat / 16) ∧ digit low = digit (b.toNat % 16) := by
  have hb := b.toNat_lt
  constructor
  · rintro rfl
    rw [UInt8.toNat_ofNat', show (16 * high + low) % 2 ^ 8 = 16 * high + low by omega,
      show (16 * high + low) / 16 = high by omega, show (16 * high + low) % 16 = low by omega]
    exact ⟨rfl, rfl⟩
  · rintro ⟨h₁, h₂⟩
    obtain rfl := digit_injective hhigh (by omega) h₁
    obtain rfl := digit_injective hlow (by omega) h₂
    rw [show 16 * (b.toNat / 16) + b.toNat % 16 = b.toNat by omega, UInt8.ofNat_toNat]

/-- Of the digits of a byte, both have a value. -/
theorem exists_values_of_lower {a b : UInt8} {rest bytes : Bytes}
    (h : (a :: b :: rest).map Bytes.lower = encodeBytes bytes) :
    ∃ c cs, bytes = c :: cs ∧ value? a = some (c.toNat / 16) ∧ value? b = some (c.toNat % 16) ∧
      rest.map Bytes.lower = encodeBytes cs := by
  cases bytes with
  | nil => cases h
  | cons c cs =>
    have hc := c.toNat_lt
    rw [encodeBytes_cons] at h
    obtain ⟨ha, h⟩ := List.cons.inj h
    obtain ⟨hb, hrest⟩ := List.cons.inj h
    exact ⟨c, cs, rfl, value?_eq_some_iff.2 ⟨by omega, ha⟩, value?_eq_some_iff.2 ⟨by omega, hb⟩, hrest⟩

theorem pairs_eq_ok_iff {position : Nat} {text bytes : Bytes} :
    pairs position text = .ok bytes ↔ text.map Bytes.lower = encodeBytes bytes := by
  induction position, text using pairs.induct generalizing bytes with
  | case1 position =>
    cases bytes with
    | nil => exact iff_of_true rfl rfl
    | cons c cs => exact iff_of_false nofun nofun
  | case2 position a =>
    refine iff_of_false nofun fun h => ?_
    have hlength := congrArg List.length h
    rw [length_encodeBytes, List.length_map, List.length_singleton] at hlength
    omega
  | case3 position a b rest hnone =>
    refine iff_of_false (by simp [pairs, hnone]) fun h => ?_
    obtain ⟨c, cs, rfl, ha, _⟩ := exists_values_of_lower h
    cases hnone.symm.trans ha
  | case4 position a b rest high hhigh hnone =>
    refine iff_of_false (by simp [pairs, hhigh, hnone]) fun h => ?_
    obtain ⟨c, cs, rfl, _, hb, _⟩ := exists_values_of_lower h
    cases hnone.symm.trans hb
  | case5 position a b rest high hhigh low hlow ih =>
    have hpairs : pairs position (a :: b :: rest) =
        (pairs (position + 2) rest).map (UInt8.ofNat (16 * high + low) :: ·) := by
      simp [pairs, hhigh, hlow]
    rw [hpairs, map_eq_ok_iff]
    constructor
    · rintro ⟨cs, hcs, rfl⟩
      obtain ⟨hhigh16, hhigh⟩ := value?_eq_some_iff.1 hhigh
      obtain ⟨hlow16, hlow⟩ := value?_eq_some_iff.1 hlow
      obtain ⟨h₁, h₂⟩ := (digits_eq_iff hhigh16 hlow16).1 rfl
      rw [encodeBytes_cons, ← h₁, ← h₂, ← hhigh, ← hlow, ← ih.1 hcs]
      rfl
    · intro h
      obtain ⟨c, cs, rfl, ha, hb, hrest⟩ := exists_values_of_lower h
      obtain rfl := Option.some.inj (hhigh.symm.trans ha)
      obtain rfl := Option.some.inj (hlow.symm.trans hb)
      have hc := c.toNat_lt
      exact ⟨cs, ih.2 hrest, by rw [(digits_eq_iff (by omega) (by omega)).2 ⟨rfl, rfl⟩]⟩

theorem decodeBytes_eq_ok_iff {text bytes : Bytes} :
    decodeBytes text = .ok bytes ↔ text.map Bytes.lower = encodeBytes bytes := by
  unfold decodeBytes
  split
  next hodd =>
    refine iff_of_false nofun fun h => ?_
    have hlength := congrArg List.length h
    rw [length_encodeBytes, List.length_map] at hlength
    omega
  next => exact pairs_eq_ok_iff

theorem ofText_encode (bytes : Bytes) : Bytes.ofText (encode bytes) = encodeBytes bytes :=
  Bytes.ofText_latinText (encodeBytes_lt bytes)

/-- A text is read as some bytes exactly when it is their writing, in either case. -/
theorem decode_eq_ok_iff {text : String} {bytes : Bytes} : decode text = .ok bytes ↔ text.toLower = encode bytes := by
  unfold decode
  rw [decodeBytes_eq_ok_iff, ← Bytes.ofText_toLower, ← ofText_encode, Bytes.ofText_injective.eq_iff]

theorem decode_encode (bytes : Bytes) : decode (encode bytes) = .ok bytes := by
  rw [decode, ofText_encode, decodeBytes_eq_ok_iff, map_lower_encodeBytes]

theorem encode_injective : Function.Injective encode := by
  intro bytes bytes' h
  have hdecode := decode_encode bytes
  rw [h, decode_encode bytes'] at hdecode
  exact (Except.ok.inj hdecode).symm

end Hex

end ReportRelay
