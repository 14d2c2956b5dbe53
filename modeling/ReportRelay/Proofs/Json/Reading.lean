import ReportRelay.Json.Reader
import ReportRelay.Json.Text
import ReportRelay.Proofs.Bytes.Text
import ReportRelay.Proofs.Except

/-!
# Texts read back

A reader takes a value from certain bytes if it does so whatever follows them. What a text is written as, with all its
escapes, is read as that text.
-/

namespace ReportRelay.Json

open Reader

variable {α β : Type} {reader : Reader α} {bytes more : Bytes} {first : UInt8} {a : α} {b : β}

def Reads (reader : Reader α) (bytes : Bytes) (a : α) : Prop :=
  ∀ rest, reader.run (bytes ++ rest) = .ok (a, rest)

theorem toNat_byte {c : Char} (h : c.toNat < 256) : (byte c).toNat = c.toNat := by
  rw [byte, UInt8.toNat_ofNat', Nat.mod_eq_of_lt h]

theorem byte_ne {c d : Char} (hc : c.toNat < 256) (hd : d.toNat < 256) (h : c ≠ d) : byte c ≠ byte d := by
  intro heq
  have hnat := congrArg UInt8.toNat heq
  rw [toNat_byte hc, toNat_byte hd] at hnat
  exact h (Char.toNat_inj.1 hnat)

theorem run_next (hspace : isSpace first = false) (rest : Bytes) :
    next.run (first :: rest) = .ok (some first, first :: rest) := by
  have hskip : (first :: rest).dropWhile isSpace = first :: rest :=
    List.dropWhile_cons_of_neg (by simp [hspace])
  change Except.ok (((first :: rest).dropWhile isSpace).head?, (first :: rest).dropWhile isSpace) = _
  rw [hskip]
  rfl

namespace Reads

protected theorem pure (a : α) : Reads (pure a) [] a := fun _ => rfl

theorem bind {f : α → Reader β} (h : Reads reader bytes a) (hf : Reads (f a) more b) :
    Reads (reader >>= f) (bytes ++ more) b := by
  intro rest
  rw [List.append_assoc, StateT.run_bind, h (more ++ rest), ok_bind]
  exact hf rest

/-- The last step takes nothing. -/
theorem bind_nil {f : α → Reader β} (h : Reads reader bytes a) (hf : Reads (f a) [] b) :
    Reads (reader >>= f) bytes b := by
  have hbind := h.bind hf
  rwa [List.append_nil] at hbind

theorem bind_pure (h : Reads reader bytes a) (f : α → β) : Reads (reader >>= fun a => pure (f a)) bytes (f a) :=
  h.bind_nil (Reads.pure (f a))

/-- A look at the byte that comes next takes nothing. -/
theorem next_bind {f : Option UInt8 → Reader β} (hspace : isSpace first = false)
    (h : Reads (f (some first)) (first :: bytes) b) : Reads (next >>= f) (first :: bytes) b := by
  intro rest
  rw [StateT.run_bind, List.cons_append, run_next hspace, ok_bind]
  exact h rest

theorem take (first : UInt8) : Reads take [first] first := fun _ => rfl

theorem take_bind {f : UInt8 → Reader β} (h : Reads (f first) bytes b) :
    Reads (Reader.take >>= f) (first :: bytes) b :=
  (Reads.take first).bind h

theorem expect {c : Char} (hspace : isSpace (byte c) = false) : Reads (expect c) [byte c] () := by
  intro rest
  have hskip : (byte c :: rest).dropWhile isSpace = byte c :: rest :=
    List.dropWhile_cons_of_neg (by simp [hspace])
  change (Reader.take >>= fun b => if b = byte c then pure () else fail).run
    ((byte c :: rest).dropWhile isSpace) = _
  rw [hskip]
  change (if byte c = byte c then pure () else fail : Reader Unit).run rest = _
  rw [if_pos rfl]
  rfl

theorem expect_bind {c : Char} {f : Unit → Reader β} (hspace : isSpace (byte c) = false) (h : Reads (f ()) bytes b) :
    Reads (Reader.expect c >>= f) (byte c :: bytes) b :=
  (Reads.expect hspace).bind h

/-- As many steps as there are bytes left are as many as these bytes at least. -/
theorem length_bind {f : Nat → Reader β} (h : ∀ fuel, bytes.length ≤ fuel → Reads (f fuel) bytes b) :
    Reads (get >>= fun input => f input.length) bytes b := by
  intro rest
  rw [StateT.run_bind, StateT.run_get, pure_bind]
  exact h _ (by simp) rest

end Reads

/-! ## Escapes -/

theorem hexDigit_lt {n : Nat} (h : n < 16) : Hex.digit n < 128 := by
  revert n
  decide

theorem reads_hexDigit {n : Nat} (h : n < 16) : Reads hexDigit [Hex.digit n] n := by
  have hvalue : Hex.value? (Hex.digit n) = some n := by
    revert n
    decide
  refine Reads.take_bind ?_
  rw [hvalue]
  exact Reads.pure n

/-- A code point of one byte, with two zeros before its digits. -/
theorem reads_codePoint {n : Nat} (h : n < 256) :
    Reads codePoint [Hex.digit 0, Hex.digit 0, Hex.digit (n / 16), Hex.digit (n % 16)] (Char.ofNat n) := by
  have hdigits : Reads fourHexDigits [Hex.digit 0, Hex.digit 0, Hex.digit (n / 16), Hex.digit (n % 16)]
      (4096 * 0 + 256 * 0 + 16 * (n / 16) + n % 16) :=
    (reads_hexDigit (by decide)).bind ((reads_hexDigit (by decide)).bind
      ((reads_hexDigit (by omega)).bind ((reads_hexDigit (by omega)).bind_pure _)))
  have hvalue : 4096 * 0 + 256 * 0 + 16 * (n / 16) + n % 16 = n := by omega
  rw [hvalue] at hdigits
  refine hdigits.bind_nil ?_
  rw [if_neg (by omega), if_neg (by omega)]
  exact Reads.pure _

theorem reads_shortEscape {c : Char} (mark : UInt8) (hu : mark ≠ byte 'u') (h : shortEscape? mark = some c) :
    Reads escape [mark] c := by
  refine Reads.take_bind ?_
  rw [if_neg hu, h]
  exact Reads.pure c

theorem reads_numericEscape {n : Nat} (h : n < 256) :
    Reads escape [byte 'u', Hex.digit 0, Hex.digit 0, Hex.digit (n / 16), Hex.digit (n % 16)] (Char.ofNat n) := by
  refine Reads.take_bind ?_
  rw [if_pos rfl]
  exact reads_codePoint h

/-! ## Texts -/

/-- Written within a text, some bytes stand for others. -/
def StandsFor (written meant : Bytes) : Prop :=
  ∀ tail out : Bytes, (∀ fuel, tail.length ≤ fuel → Reads (textBytes fuel) tail out) →
    ∀ fuel, (written ++ tail).length ≤ fuel → Reads (textBytes fuel) (written ++ tail) (meant ++ out)

namespace StandsFor

variable {written meant : Bytes}

theorem nil : StandsFor [] [] := fun _ _ h => h

theorem append {written' meant' : Bytes} (h : StandsFor written meant) (h' : StandsFor written' meant') :
    StandsFor (written ++ written') (meant ++ meant') := by
  intro tail out htail
  rw [List.append_assoc, List.append_assoc]
  exact h _ _ (h' _ _ htail)

/-- A byte that is written as it is. -/
theorem plain (hquote : first ≠ byte '"') (hescape : first ≠ byte '\\') (hcontrol : ¬first < 32) :
    StandsFor [first] [first] := by
  intro tail out htail fuel hfuel
  obtain ⟨left, rfl⟩ : ∃ left, fuel = left + 1 := ⟨fuel - 1, by simp at hfuel; omega⟩
  refine Reads.take_bind ?_
  rw [if_neg hquote, if_neg hescape, if_neg hcontrol]
  exact (htail left (by simp at hfuel; omega)).bind_pure _

theorem escaped {c : Char} (h : Reads escape written c) :
    StandsFor (byte '\\' :: written) (String.utf8EncodeChar c) := by
  intro tail out htail fuel hfuel
  obtain ⟨left, rfl⟩ : ∃ left, fuel = left + 1 := ⟨fuel - 1, by simp at hfuel; omega⟩
  refine Reads.take_bind ?_
  rw [if_neg (by decide), if_pos rfl]
  have hc : Bytes.ofText (String.singleton c) = String.utf8EncodeChar c := by
    rw [String.singleton_eq_ofList, Bytes.ofText_ofList, List.flatMap_cons, List.flatMap_nil, List.append_nil]
  rw [← hc]
  exact h.bind ((htail left (by simp at hfuel; omega)).bind_pure _)

theorem of_plain (h : ∀ b ∈ written, b ≠ byte '"' ∧ b ≠ byte '\\' ∧ ¬b < 32) : StandsFor written written := by
  induction written with
  | nil => exact nil
  | cons b written ih =>
    obtain ⟨⟨hquote, hescape, hcontrol⟩, hwritten⟩ := List.forall_mem_cons.1 h
    exact (plain hquote hescape hcontrol).append (ih hwritten)

/-- A character that is written as it is. The bytes of one beyond ASCII are no marks and no control characters. -/
theorem plainChar {c : Char} (hquote : c ≠ '"') (hescape : c ≠ '\\') (hcontrol : 32 ≤ c.toNat) :
    StandsFor (String.utf8EncodeChar c) (String.utf8EncodeChar c) := by
  refine of_plain fun b hb => ?_
  by_cases hc : c.toNat < 128
  · rw [Bytes.utf8EncodeChar_of_toNat_lt hc] at hb
    obtain rfl : b = byte c := List.mem_singleton.1 hb
    have hc' : c.toNat < 256 := by omega
    refine ⟨byte_ne hc' (by decide) hquote, byte_ne hc' (by decide) hescape, fun h => ?_⟩
    rw [UInt8.lt_iff_toNat_lt, toNat_byte hc'] at h
    exact absurd hcontrol (Nat.not_le.2 h)
  · have hlarge : 128 ≤ b := Bytes.le_of_mem_utf8EncodeChar (Nat.le_of_not_lt hc) b hb
    refine ⟨?_, ?_, fun h => ?_⟩
    · rintro rfl
      exact absurd hlarge (by decide)
    · rintro rfl
      exact absurd hlarge (by decide)
    · rw [UInt8.lt_iff_toNat_lt] at h
      rw [UInt8.le_iff_toNat_le] at hlarge
      exact absurd (Nat.le_trans hlarge (Nat.le_of_lt h)) (by decide)

theorem numeric {c : Char} (h : c.toNat < 256) :
    StandsFor (("\\u00".toList ++ (Hex.encode [UInt8.ofNat c.toNat]).toList).flatMap String.utf8EncodeChar)
      (String.utf8EncodeChar c) := by
  have hback : (UInt8.ofNat c.toNat).toNat = c.toNat := toNat_byte h
  have hdigits : Hex.encodeBytes [UInt8.ofNat c.toNat] = [Hex.digit (c.toNat / 16), Hex.digit (c.toNat % 16)] := by
    rw [Hex.encodeBytes, List.flatMap_cons, List.flatMap_nil, List.append_nil, hback]
  have hascii : ∀ b ∈ [Hex.digit (c.toNat / 16), Hex.digit (c.toNat % 16)], b < 128 := by
    simp only [List.forall_mem_cons]
    exact ⟨hexDigit_lt (by omega), hexDigit_lt (by omega), List.forall_mem_nil _⟩
  have hhex : (Hex.encode [UInt8.ofNat c.toNat]).toList.flatMap String.utf8EncodeChar =
      [Hex.digit (c.toNat / 16), Hex.digit (c.toNat % 16)] := by
    rw [← Bytes.ofText_eq_flatMap, Hex.encode, hdigits, Bytes.ofText_latinText hascii]
  have hread := escaped (reads_numericEscape h)
  rw [Char.ofNat_toNat] at hread
  rw [List.flatMap_append, hhex]
  exact hread

theorem escapedChar (c : Char) :
    StandsFor ((Json.escapedChar c).flatMap String.utf8EncodeChar) (String.utf8EncodeChar c) := by
  unfold Json.escapedChar
  split
  next h =>
    subst h
    exact escaped (reads_shortEscape (byte '"') (by decide) rfl)
  split
  next h =>
    subst h
    exact escaped (reads_shortEscape (byte '\\') (by decide) rfl)
  split
  next h =>
    subst h
    exact escaped (reads_shortEscape (byte 'b') (by decide) rfl)
  split
  next h =>
    subst h
    exact escaped (reads_shortEscape (byte 't') (by decide) rfl)
  split
  next h =>
    subst h
    exact escaped (reads_shortEscape (byte 'n') (by decide) rfl)
  split
  next h =>
    subst h
    exact escaped (reads_shortEscape (byte 'f') (by decide) rfl)
  split
  next h =>
    subst h
    exact escaped (reads_shortEscape (byte 'r') (by decide) rfl)
  split
  next h => exact numeric (by omega)
  next hquote hescape _ _ _ _ _ hcontrol =>
    rw [List.flatMap_cons, List.flatMap_nil, List.append_nil]
    exact plainChar hquote hescape (Nat.le_of_not_lt hcontrol)

theorem chars (cs : List Char) :
    StandsFor ((cs.flatMap Json.escapedChar).flatMap String.utf8EncodeChar) (cs.flatMap String.utf8EncodeChar) := by
  induction cs with
  | nil => exact nil
  | cons c cs ih =>
    rw [List.flatMap_cons, List.flatMap_append, List.flatMap_cons]
    exact (escapedChar c).append ih

end StandsFor

/-- What a text is written as behind its opening mark. -/
def unopened (text : String) : Bytes :=
  (text.toList.flatMap escapedChar).flatMap String.utf8EncodeChar ++ [byte '"']

theorem ofText_quoted (text : String) : Bytes.ofText (quoted text) = byte '"' :: unopened text := by
  have hmark : Bytes.ofText "\"" = [byte '"'] := by decide
  unfold quoted unopened
  rw [Bytes.ofText_append, Bytes.ofText_append, hmark, Bytes.ofText_ofList, List.append_assoc, List.singleton_append]

theorem reads_openText (text : String) : Reads openText (unopened text) text := by
  intro rest
  have hclosed (fuel : Nat) (hfuel : [byte '"'].length ≤ fuel) : Reads (textBytes fuel) [byte '"'] [] := by
    obtain ⟨left, rfl⟩ : ∃ left, fuel = left + 1 := ⟨fuel - 1, by simp at hfuel; omega⟩
    exact Reads.take_bind (Reads.pure [])
  have hbytes : Reads (textBytes (unopened text ++ rest).length) (unopened text) (Bytes.ofText text) := by
    have hread := StandsFor.chars text.toList [byte '"'] [] hclosed (unopened text ++ rest).length (by simp [unopened])
    rwa [List.append_nil, ← Bytes.ofText_eq_flatMap] at hread
  unfold openText
  rw [StateT.run_bind, StateT.run_get, pure_bind, StateT.run_bind, hbytes rest, ok_bind]
  dsimp only
  rw [Bytes.toText?_ofText]
  rfl

/-- A text is read from what it is written as. -/
theorem reads_text (text : String) : Reads Reader.text (Bytes.ofText (quoted text)) text := by
  rw [ofText_quoted]
  refine Reads.next_bind (by decide) ?_
  rw [if_pos rfl]
  exact Reads.take_bind (reads_openText text)

end ReportRelay.Json
