import ReportRelay.Bytes

/-!
# Texts as bytes

The bytes of a text give the text back, and bytes that give a text are its own.
-/

namespace ReportRelay.Bytes

@[simp] theorem toText?_ofText (text : String) : toText? (ofText text) = some text :=
  dif_pos text.isValidUTF8

theorem ofText_of_toText? {bytes : Bytes} {text : String} (h : toText? bytes = some text) : ofText text = bytes := by
  unfold toText? String.fromUTF8? at h
  split at h
  · cases h
    rfl
  · cases h

theorem ofText_injective : Function.Injective ofText := by
  intro a b h
  have hread := congrArg toText? h
  rwa [toText?_ofText, toText?_ofText, Option.some.injEq] at hread

@[simp] theorem length_ofText (text : String) : (ofText text).length = text.utf8ByteSize :=
  Array.length_toList

theorem ofText_append (a b : String) : ofText (a ++ b) = ofText a ++ ofText b := by
  simp [ofText]

theorem ofText_ofList (cs : List Char) : ofText (String.ofList cs) = cs.flatMap String.utf8EncodeChar := by
  simp [ofText, List.utf8Encode]

theorem ofText_eq_flatMap (text : String) : ofText text = text.toList.flatMap String.utf8EncodeChar := by
  rw [← ofText_ofList, String.ofList_toList]

theorem utf8EncodeChar_of_toNat_lt {c : Char} (h : c.toNat < 128) :
    String.utf8EncodeChar c = [UInt8.ofNat c.toNat] :=
  if_pos (Nat.le_of_lt_succ h)

/-- The bytes of a character beyond ASCII are all beyond ASCII themselves. -/
theorem le_of_mem_utf8EncodeChar {c : Char} (h : 128 ≤ c.toNat) : ∀ b ∈ String.utf8EncodeChar c, 128 ≤ b := by
  have hbyte {n : Nat} (hle : 128 ≤ n) (hlt : n < 256) : 128 ≤ UInt8.ofNat n := by
    rwa [UInt8.le_iff_toNat_le, UInt8.toNat_ofNat', Nat.mod_eq_of_lt hlt]
  unfold String.utf8EncodeChar
  dsimp only
  rw [if_neg (show ¬c.val.toNat ≤ 0x7f from Nat.not_le.2 h)]
  split
  · simp only [List.forall_mem_cons]
    exact ⟨hbyte (by omega) (by omega), hbyte (by omega) (by omega), List.forall_mem_nil _⟩
  split
  · simp only [List.forall_mem_cons]
    exact ⟨hbyte (by omega) (by omega), hbyte (by omega) (by omega), hbyte (by omega) (by omega),
      List.forall_mem_nil _⟩
  · simp only [List.forall_mem_cons]
    exact ⟨hbyte (by omega) (by omega), hbyte (by omega) (by omega), hbyte (by omega) (by omega),
      hbyte (by omega) (by omega), List.forall_mem_nil _⟩

theorem utf8EncodeChar_of_lt {b : UInt8} (h : b < 128) : String.utf8EncodeChar (Char.ofNat b.toNat) = [b] := by
  have hb : b.toNat < 128 := h
  have hvalid : b.toNat.isValidChar := .inl (by omega)
  have hchar : (Char.ofNat b.toNat).toNat = b.toNat := by
    rw [Char.ofNat, dif_pos hvalid]
    rfl
  rw [utf8EncodeChar_of_toNat_lt (by omega), hchar, UInt8.ofNat_toNat]

/-- A text with one character per byte has these bytes itself as long as they are those of ASCII. -/
theorem ofText_latinText {bytes : Bytes} (h : ∀ b ∈ bytes, b < 128) : ofText (latinText bytes) = bytes := by
  unfold latinText
  rw [ofText_ofList]
  induction bytes with
  | nil => rfl
  | cons b bytes ih =>
    obtain ⟨hb, hbytes⟩ := List.forall_mem_cons.1 h
    rw [List.map_cons, List.flatMap_cons, ih hbytes, utf8EncodeChar_of_lt hb, List.singleton_append]

@[simp] theorem ofText_eq_nil_iff {text : String} : ofText text = [] ↔ text = "" := by
  constructor
  · intro h
    have hsome : some text = some "" := by
      rw [← toText?_ofText text, h]
      rfl
    exact Option.some.inj hsome
  · rintro rfl
    rfl

end ReportRelay.Bytes
