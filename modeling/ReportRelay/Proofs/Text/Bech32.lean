import Mathlib.Data.List.TakeDrop
import ReportRelay.Proofs.Text.Checksum
import ReportRelay.Proofs.Text.FiveBits
import ReportRelay.Proofs.Text.Hex

/-!
# Addresses are read as they were written

An address is written in lower case throughout, so nothing in it mixes cases, and its symbols contain no separator. What
is read from it is the human-readable part in lower case and the symbols in front of the checksum.
-/

namespace ReportRelay.Bech32

/-! ## Human-readable parts -/

theorem lowerCase_eq_toLower (hrp : String) : lowerCase hrp = hrp.toLower := by
  have htoList : hrp.toLower.toList = hrp.toList.map Char.toLower := String.toList_map
  rw [lowerCase, ← htoList, String.ofList_toList]

theorem toLower_toLower (c : Char) : c.toLower.toLower = c.toLower := by
  by_cases h : c.val ≥ 'A'.val ∧ c.val ≤ 'Z'.val
  · have hlower : c.toLower.val = c.val + 32 := congrArg Char.val (dif_pos h)
    refine dif_neg ?_
    rw [hlower]
    grind
  · have hlower : c.toLower = c := dif_neg h
    rw [hlower, hlower]

theorem lowerCase_lowerCase (hrp : String) : lowerCase (lowerCase hrp) = lowerCase hrp := by
  have hsame : Char.toLower ∘ Char.toLower = Char.toLower := funext toLower_toLower
  rw [lowerCase, lowerCase, String.toList_ofList, List.map_map, hsame]

/-- What may stand in a human-readable part. -/
def Printable (b : UInt8) : Prop :=
  33 ≤ b.toNat ∧ b.toNat ≤ 126

instance (b : UInt8) : Decidable (Printable b) :=
  inferInstanceAs (Decidable (33 ≤ b.toNat ∧ b.toNat ≤ 126))

theorem lower_of_lt : ∀ n < 127, 33 ≤ n →
    Printable (Bytes.lower (UInt8.ofNat n)) ∧ (Char.ofNat (Bytes.lower (UInt8.ofNat n)).toNat).isUpper = false := by
  decide +kernel

theorem lower_of_printable {b : UInt8} (h : Printable b) :
    Printable (Bytes.lower b) ∧ (Char.ofNat (Bytes.lower b).toNat).isUpper = false := by
  have hlower := lower_of_lt b.toNat (Nat.lt_succ_of_le h.2) h.1
  rwa [UInt8.ofNat_toNat] at hlower

variable {seen later : LetterCase} {bytes : Bytes} {hrp : String}

theorem hrpBytes_cons (seen : LetterCase) (b : UInt8) (bytes : Bytes) : hrpBytes seen (b :: bytes) =
    if Printable b then
      match seen.see? (Char.ofNat b.toNat) with
      | none => .error .mixedCase
      | some next => hrpBytes next bytes
    else .error (.invalidChar (Char.ofNat b.toNat)) := by
  have hiff : (b.toNat < 33 ∨ 126 < b.toNat) ↔ ¬Printable b := by
    unfold Printable
    omega
  rw [hrpBytes]
  by_cases hb : Printable b
  · rw [if_pos hb]
    exact if_neg fun hout => hiff.1 hout hb
  · rw [if_neg hb]
    exact if_pos (hiff.2 hb)

theorem printable_of_hrpBytes (h : hrpBytes seen bytes = .ok later) : ∀ b ∈ bytes, Printable b := by
  induction bytes generalizing seen with
  | nil => exact List.forall_mem_nil _
  | cons b bytes ih =>
    rw [hrpBytes_cons] at h
    split at h
    · next hb =>
      split at h
      · cases h
      · exact List.forall_mem_cons.2 ⟨hb, ih h⟩
    · cases h

/-- A character that is no capital letter can follow where none was. -/
theorem exists_see?_eq {c : Char} (hseen : seen ≠ .upper) (hc : c.isUpper = false) :
    ∃ next, next ≠ .upper ∧ seen.see? c = some next := by
  by_cases hlower : c.isLower
  · exact ⟨.lower, nofun, by simp [LetterCase.see?, hlower, hseen]⟩
  · exact ⟨seen, hseen, by simp [LetterCase.see?, hlower, hc]⟩

theorem exists_hrpBytes_map_lower (hseen : seen ≠ .upper) (h : ∀ b ∈ bytes, Printable b) :
    ∃ later, later ≠ .upper ∧ hrpBytes seen (bytes.map Bytes.lower) = .ok later := by
  induction bytes generalizing seen with
  | nil => exact ⟨seen, hseen, rfl⟩
  | cons b bytes ih =>
    obtain ⟨hb, hbytes⟩ := List.forall_mem_cons.1 h
    obtain ⟨hprintable, hupper⟩ := lower_of_printable hb
    obtain ⟨next, hnext, hsee⟩ := exists_see?_eq hseen hupper
    rw [List.map_cons, hrpBytes_cons, if_pos hprintable, hsee]
    exact ih hnext hbytes

theorem hrpCase_eq_ok_iff : hrpCase hrp = .ok seen ↔
    Bytes.ofText hrp ≠ [] ∧ (Bytes.ofText hrp).length ≤ 83 ∧ hrpBytes .unknown (.ofText hrp) = .ok seen := by
  simp only [hrpCase, List.isEmpty_iff]
  split
  next h =>
    refine iff_of_false nofun ?_
    rintro ⟨hne, hle, _⟩
    exact h.elim hne (Nat.not_lt.2 hle)
  next h =>
    obtain ⟨hne, hle⟩ := not_or.1 h
    exact ⟨fun hbytes => ⟨hne, Nat.not_lt.1 hle, hbytes⟩, fun hall => hall.2.2⟩

/-- What may be a human-readable part may be one in lower case. -/
theorem exists_hrpCase_lowerCase (h : hrpCase hrp = .ok seen) :
    ∃ later, later ≠ .upper ∧ hrpCase (lowerCase hrp) = .ok later := by
  obtain ⟨hne, hle, hbytes⟩ := hrpCase_eq_ok_iff.1 h
  have hunknown : LetterCase.unknown ≠ .upper := nofun
  obtain ⟨later, hlater, hlower⟩ := exists_hrpBytes_map_lower hunknown (printable_of_hrpBytes hbytes)
  refine ⟨later, hlater, hrpCase_eq_ok_iff.2 ?_⟩
  rw [lowerCase_eq_toLower, Bytes.ofText_toLower]
  exact ⟨by simpa using hne, by simpa using hle, hlower⟩

/-! ## Symbols -/

theorem symbolChar_spec : ∀ n < 32, symbolChar n ≠ '1' ∧ (symbolChar n).toNat < 128 ∧
    (symbolChar n).isUpper = false ∧ charset.idxOf? (symbolChar n).toLower = some n := by
  decide +kernel

theorem dataValues_symbols {symbols : List Nat} (hseen : seen ≠ .upper) (h : ∀ n ∈ symbols, n < 32) :
    dataValues seen (symbols.map symbolChar) = .ok symbols := by
  induction symbols generalizing seen with
  | nil => rfl
  | cons n symbols ih =>
    obtain ⟨hn, hsymbols⟩ := List.forall_mem_cons.1 h
    obtain ⟨_, hascii, hupper, hindex⟩ := symbolChar_spec n hn
    obtain ⟨next, hnext, hsee⟩ := exists_see?_eq hseen hupper
    rw [List.map_cons, dataValues, if_neg (Nat.not_le.2 hascii), hsee]
    simp only [hindex, ih hnext hsymbols]
    rfl

/-- The separator is the last one, since no symbol looks like it. -/
theorem split?_append {front data : List Char} (h : '1' ∉ data) :
    split? (front ++ '1' :: data) = some (front, data) := by
  have hdata : ∀ c ∈ data.reverse, decide (c ≠ '1') = true := by
    intro c hc
    have hne : c ≠ '1' := fun heq => h (heq ▸ List.mem_reverse.1 hc)
    exact decide_eq_true hne
  have hspan : (front ++ '1' :: data).reverse.span (· ≠ '1') = (data.reverse, '1' :: front.reverse) := by
    rw [List.reverse_append, List.reverse_cons, List.append_assoc, List.singleton_append,
      List.span_eq_takeWhile_dropWhile, List.takeWhile_append_of_pos hdata, List.dropWhile_append_of_pos hdata]
    simp
  unfold split?
  rw [hspan]
  simp only [List.reverse_reverse]

/-! ## Addresses -/

/-- The symbols that an address shows. -/
def shown (hrp : String) (bytes : Bytes) : List Nat :=
  regroup 0 0 bytes ++ checksum (lowerCase hrp) (regroup 0 0 bytes)

theorem encode_eq_ok_iff {address : String} : encode hrp bytes = .ok address ↔
    (∃ seen, hrpCase hrp = .ok seen) ∧
      address = String.ofList ((lowerCase hrp).toList ++ '1' :: (shown hrp bytes).map symbolChar) := by
  unfold encode shown
  cases hrpCase hrp with
  | error fault => simp
  | ok seen => simp [eq_comm]

theorem lt_of_mem_shown {n : Nat} (h : n ∈ shown hrp bytes) : n < 32 :=
  (List.mem_append.1 h).elim lt_of_mem_regroup lt_of_mem_checksum

theorem separator_notMem_shown (hrp : String) (bytes : Bytes) : '1' ∉ (shown hrp bytes).map symbolChar := by
  intro h
  obtain ⟨n, hn, hchar⟩ := List.mem_map.1 h
  exact (symbolChar_spec n (lt_of_mem_shown hn)).1 hchar

theorem length_shown (hrp : String) (bytes : Bytes) :
    (shown hrp bytes).length = (regroup 0 0 bytes).length + checksumLength := by
  simp [shown]

/-- The address of some bytes is read as the human-readable part in lower case and the groups of the bytes. -/
theorem decode_of_encode {address : String} (h : encode hrp bytes = .ok address) :
    decode address = .ok (lowerCase hrp, regroup 0 0 bytes) := by
  obtain ⟨⟨seen, hcase⟩, rfl⟩ := encode_eq_ok_iff.1 h
  obtain ⟨later, hlater, hlower⟩ := exists_hrpCase_lowerCase hcase
  have hsplit : split? ((lowerCase hrp).toList ++ '1' :: (shown hrp bytes).map symbolChar) = _ :=
    split?_append (separator_notMem_shown hrp bytes)
  have hvalues : dataValues later ((shown hrp bytes).map symbolChar) = .ok (shown hrp bytes) :=
    dataValues_symbols hlater fun _ => lt_of_mem_shown
  have hverified : polymod (expandHrp (lowerCase hrp) ++ shown hrp bytes) ∈ checksums := by
    rw [shown, ← List.append_assoc, polymod_checksum]
    exact List.mem_cons_self
  have hlength := length_shown hrp bytes
  have htake : (shown hrp bytes).take ((shown hrp bytes).length - checksumLength) = regroup 0 0 bytes := by
    rw [hlength, Nat.add_sub_cancel]
    exact List.take_left
  unfold decode
  rw [String.toList_ofList, hsplit]
  simp only [String.ofList_toList, hlower]
  rw [hvalues]
  simp only [lowerCase_lowerCase, hverified, if_true, htake]
  rw [if_neg (by omega)]

/-- The address says these bytes after the human-readable part, and the checksum at its end verifies. -/
def Spells (address hrp : String) (bytes : Bytes) : Prop :=
  ∃ groups check : List Nat, decode address = .ok (hrp, groups) ∧ ungroup? 0 0 groups = some bytes ∧
    address = String.ofList (hrp.toList ++ '1' :: (groups ++ check).map symbolChar) ∧ check.length = checksumLength ∧
    polymod (expandHrp hrp ++ groups ++ check) = 1

theorem spells_of_encode {address : String} (h : encode hrp bytes = .ok address) :
    Spells address (lowerCase hrp) bytes := by
  exact ⟨regroup 0 0 bytes, checksum (lowerCase hrp) (regroup 0 0 bytes), decode_of_encode h, ungroup?_regroup bytes,
    (encode_eq_ok_iff.1 h).2, length_checksum _ _, polymod_checksum _ _⟩

theorem Spells.unique {address hrp' : String} {bytes' : Bytes} (h : Spells address hrp bytes)
    (h' : Spells address hrp' bytes') : hrp = hrp' ∧ bytes = bytes' := by
  obtain ⟨groups, _, hdecode, hgroups, _⟩ := h
  obtain ⟨groups', _, hdecode', hgroups', _⟩ := h'
  obtain ⟨rfl, rfl⟩ := Prod.mk.inj (Except.ok.inj (hdecode.symm.trans hdecode'))
  exact ⟨rfl, Option.some.inj (hgroups.symm.trans hgroups')⟩

end ReportRelay.Bech32
