import ReportRelay.Proofs.Bytes.Text
import ReportRelay.Proofs.Except
import ReportRelay.Text.Base64

/-!
# Base 64 read back

What bytes are written as is read as those bytes: three bytes are four symbols, and padding completes the last group.
Nothing else is read: every text that is read is the one writing of its bytes.
-/

namespace ReportRelay.Base64

/-! ## Symbols -/

theorem value?_symbol {n : Nat} (h : n < 64) : value? (symbol n) = some n := by
  revert n
  decide

theorem symbol_ne_pad {n : Nat} (h : n < 64) : symbol n ≠ pad := by
  revert n
  decide

theorem symbol_lt {n : Nat} (h : n < 64) : symbol n < 128 := by
  revert n
  decide

theorem symbols_symbol {n : Nat} (h : n < 64) (offset : Nat) (rest : Bytes) :
    symbols none offset (symbol n :: rest) = (symbols none (offset + 1) rest).map (n :: ·) := by
  rw [symbols, if_neg (symbol_ne_pad h), value?_symbol h]

theorem symbols_pad {firstPad : Option Nat} {offset : Nat} (h : 2 ≤ offset % 4) (rest : Bytes) :
    symbols firstPad offset (pad :: rest) = symbols (some (firstPad.getD offset)) (offset + 1) rest :=
  (if_pos rfl).trans (if_neg (Nat.not_lt.2 h))

/-! ## Groups -/

/-- The numbers whose symbols the bytes are written with. -/
def sextets : Bytes → List Nat
  | [] => []
  | [a] =>
    let n := a.toNat * 16
    [n / 64, n % 64]
  | [a, b] =>
    let n := (a.toNat * 256 + b.toNat) * 4
    [n / 4096, n / 64 % 64, n % 64]
  | a :: b :: c :: rest =>
    let n := (a.toNat * 256 + b.toNat) * 256 + c.toNat
    n / 262144 :: n / 4096 % 64 :: n / 64 % 64 :: n % 64 :: sextets rest

theorem symbols_encodeBytes (bytes : Bytes) {offset : Nat} (h : offset % 4 = 0) :
    symbols none offset (encodeBytes bytes) = .ok (sextets bytes) := by
  induction bytes using encodeBytes.induct generalizing offset with
  | case1 => rfl
  | case2 a =>
    have ha := a.toNat_lt
    rw [encodeBytes, symbols_symbol (by omega), symbols_symbol (by omega), symbols_pad (by omega),
      symbols_pad (by omega)]
    rfl
  | case3 a b =>
    have ha := a.toNat_lt
    have hb := b.toNat_lt
    rw [encodeBytes, symbols_symbol (by omega), symbols_symbol (by omega), symbols_symbol (by omega),
      symbols_pad (by omega)]
    rfl
  | case4 a b c rest ih =>
    have ha := a.toNat_lt
    have hb := b.toNat_lt
    have hc := c.toNat_lt
    rw [encodeBytes, symbols_symbol (by omega), symbols_symbol (by omega), symbols_symbol (by omega),
      symbols_symbol (by omega), ih (by omega)]
    rfl

theorem ofNat_eq {n : Nat} {b : UInt8} (h : n % 256 = b.toNat) : UInt8.ofNat n = b :=
  UInt8.toNat_inj.1 (UInt8.toNat_ofNat'.trans h)

theorem ofSymbols_sextets (bytes : Bytes) : ofSymbols (sextets bytes) = (bytes, true) := by
  induction bytes using sextets.induct with
  | case1 => rfl
  | case2 a =>
    have ha := a.toNat_lt
    have hjoined : a.toNat * 16 / 64 * 64 + a.toNat * 16 % 64 = a.toNat * 16 := by omega
    rw [sextets, ofSymbols, hjoined, ofNat_eq (b := a) (by omega), decide_eq_true (by omega)]
  | case3 a b =>
    have ha := a.toNat_lt
    have hb := b.toNat_lt
    have hjoined (n : Nat) : (n / 4096 * 64 + n / 64 % 64) * 64 + n % 64 = n := by omega
    rw [sextets, ofSymbols, hjoined, ofNat_eq (b := a) (by omega), ofNat_eq (b := b) (by omega),
      decide_eq_true (by omega)]
  | case4 a b c rest ih =>
    have ha := a.toNat_lt
    have hb := b.toNat_lt
    have hc := c.toNat_lt
    have hjoined (n : Nat) : ((n / 262144 * 64 + n / 4096 % 64) * 64 + n / 64 % 64) * 64 + n % 64 = n := by omega
    rw [sextets, ofSymbols, hjoined, ih]
    dsimp only
    rw [ofNat_eq (b := a) (by omega), ofNat_eq (b := b) (by omega), ofNat_eq (b := c) (by omega)]

theorem length_encodeBytes (bytes : Bytes) : (encodeBytes bytes).length % 4 = 0 := by
  induction bytes using encodeBytes.induct with
  | case1 | case2 | case3 => simp [encodeBytes]
  | case4 a b c rest ih =>
    simp only [encodeBytes, List.length_cons]
    omega

theorem encodeBytes_lt (bytes : Bytes) : ∀ b ∈ encodeBytes bytes, b < 128 := by
  have hpad : pad < 128 := by decide
  induction bytes using encodeBytes.induct with
  | case1 => exact List.forall_mem_nil _
  | case2 a =>
    have ha := a.toNat_lt
    simp only [encodeBytes, List.forall_mem_cons]
    exact ⟨symbol_lt (by omega), symbol_lt (by omega), hpad, hpad, List.forall_mem_nil _⟩
  | case3 a b =>
    have ha := a.toNat_lt
    have hb := b.toNat_lt
    simp only [encodeBytes, List.forall_mem_cons]
    exact ⟨symbol_lt (by omega), symbol_lt (by omega), symbol_lt (by omega), hpad, List.forall_mem_nil _⟩
  | case4 a b c rest ih =>
    have ha := a.toNat_lt
    have hb := b.toNat_lt
    have hc := c.toNat_lt
    simp only [encodeBytes, List.forall_mem_cons]
    exact ⟨symbol_lt (by omega), symbol_lt (by omega), symbol_lt (by omega), symbol_lt (by omega), ih⟩

theorem decodeBytes_encodeBytes (bytes : Bytes) : decodeBytes (encodeBytes bytes) = .ok bytes := by
  have hlength := length_encodeBytes bytes
  unfold decodeBytes
  dsimp only
  rw [if_neg (by omega), if_neg (by omega), symbols_encodeBytes bytes rfl]
  dsimp only
  rw [if_neg (by omega), ofSymbols_sextets]

/-- What is written is read. -/
theorem decode_encode (bytes : Bytes) : decode (encode bytes) = .ok bytes := by
  unfold decode encode
  rw [Bytes.ofText_latinText (encodeBytes_lt bytes), decodeBytes_encodeBytes]

theorem encode_injective : Function.Injective encode := by
  intro bytes bytes' h
  have hdecode := decode_encode bytes
  rw [h, decode_encode bytes'] at hdecode
  exact (Except.ok.inj hdecode).symm

/-! ## Nothing else is read -/

theorem symbol_of_value?_ofNat : ∀ k < 256, ∀ n ∈ value? (UInt8.ofNat k), n < 64 ∧ symbol n = UInt8.ofNat k := by
  decide +kernel

theorem symbol_of_value? {b : UInt8} {n : Nat} (h : value? b = some n) : n < 64 ∧ symbol n = b := by
  have hb := symbol_of_value?_ofNat b.toNat b.toNat_lt n
  rw [UInt8.ofNat_toNat] at hb
  exact hb h

/-- Behind the first pad there are only pads, up to the end of the group. -/
theorem padding_of_symbols {position offset : Nat} {text : Bytes} {values : List Nat}
    (h : symbols (some position) offset text = .ok values) :
    values = [] ∧ text = List.replicate text.length pad ∧
      (text = [] ∨ 2 ≤ offset % 4 ∧ offset % 4 + text.length ≤ 4) := by
  induction text generalizing offset with
  | nil =>
    cases h
    exact ⟨rfl, rfl, .inl rfl⟩
  | cons b text ih =>
    unfold symbols at h
    split at h
    next hpad =>
      split at h
      next => cases h
      next hplace =>
        obtain ⟨hvalues, htext, hend⟩ := ih h
        refine ⟨hvalues, ?_, .inr ⟨by omega, ?_⟩⟩
        · rw [List.length_cons, List.replicate_succ, ← htext, hpad]
        · rw [List.length_cons]
          rcases hend with rfl | hend
          · rw [List.length_nil]
            omega
          · omega
    next => cases h

/-- What is read is symbols, followed by as many pads as fit in the group. -/
theorem text_of_symbols {offset : Nat} {text : Bytes} {values : List Nat} (h : symbols none offset text = .ok values) :
    (∀ n ∈ values, n < 64) ∧ ∃ pads, text = values.map symbol ++ List.replicate pads pad ∧
      (pads = 0 ∨ 2 ≤ (offset + values.length) % 4 ∧ (offset + values.length) % 4 + pads ≤ 4) := by
  induction text generalizing offset values with
  | nil =>
    cases h
    exact ⟨List.forall_mem_nil _, 0, rfl, .inl rfl⟩
  | cons b text ih =>
    unfold symbols at h
    split at h
    next hpad =>
      split at h
      next => cases h
      next hplace =>
        obtain ⟨rfl, htext, hend⟩ := padding_of_symbols h
        refine ⟨List.forall_mem_nil _, text.length + 1, ?_, .inr ⟨?_, ?_⟩⟩
        · rw [List.map_nil, List.nil_append, List.replicate_succ, ← htext, hpad]
        · rw [List.length_nil]
          omega
        · rw [List.length_nil]
          rcases hend with rfl | hend
          · rw [List.length_nil]
            omega
          · omega
    next =>
      dsimp only at h
      split at h
      next => cases h
      next n hvalue =>
        obtain ⟨values, hvalues, rfl⟩ := map_eq_ok_iff.1 h
        obtain ⟨hlt, pads, rfl, hpads⟩ := ih hvalues
        obtain ⟨hn, hsymbol⟩ := symbol_of_value? hvalue
        refine ⟨List.forall_mem_cons.2 ⟨hn, hlt⟩, pads, ?_, ?_⟩
        · rw [List.map_cons, hsymbol, List.cons_append]
        · rw [List.length_cons, show offset + (values.length + 1) = offset + 1 + values.length by omega]
          exact hpads

theorem joined_bytes {n : Nat} (h : n < 2 ^ 24) :
    (n / 65536 % 2 ^ 8 * 256 + n / 256 % 2 ^ 8) * 256 + n % 2 ^ 8 = n := by
  have hhigh : n / 65536 = n / 256 / 256 := by rw [Nat.div_div_eq_div_mul]
  omega

/-- The bytes that symbols stand for are written with these symbols, if no bits are left over. -/
theorem encodeBytes_of_ofSymbols {values : List Nat} {bytes : Bytes} (hlt : ∀ n ∈ values, n < 64)
    (h : ofSymbols values = (bytes, true)) (hlength : values.length % 4 ≠ 1) :
    encodeBytes bytes = values.map symbol ++ List.replicate ((4 - values.length % 4) % 4) pad := by
  induction values using ofSymbols.induct generalizing bytes with
  | case1 a b c d rest bytes' clean hrest ih =>
    obtain ⟨ha, hb, hc, hd, hlt⟩ : a < 64 ∧ b < 64 ∧ c < 64 ∧ d < 64 ∧ ∀ n ∈ rest, n < 64 := by simpa using hlt
    simp only [List.length_cons] at hlength
    rw [ofSymbols, hrest] at h
    cases h
    have hrestored := joined_bytes (n := ((a * 64 + b) * 64 + c) * 64 + d) (by omega)
    rw [encodeBytes, ih hlt hrest (by omega)]
    simp only [UInt8.toNat_ofNat', hrestored, List.length_cons, List.map_cons, List.cons_append]
    congr 2
    · omega
    congr 2
    · omega
    congr 2
    · omega
    congr 2
    · omega
    · congr 2
      omega
  | case2 a b c =>
    obtain ⟨ha, hb, hc⟩ : a < 64 ∧ b < 64 ∧ c < 64 := by simpa using hlt
    obtain ⟨rfl, hclean⟩ := Prod.mk.inj h
    have hclean := of_decide_eq_true hclean
    have hrestored : (((a * 64 + b) * 64 + c) / 1024 % 2 ^ 8 * 256 + ((a * 64 + b) * 64 + c) / 4 % 2 ^ 8) * 4 =
        (a * 64 + b) * 64 + c := by omega
    simp only [encodeBytes, UInt8.toNat_ofNat', hrestored]
    congr 2
    · omega
    congr 2
    · omega
    congr 2
    omega
  | case3 a b =>
    obtain ⟨ha, hb⟩ : a < 64 ∧ b < 64 := by simpa using hlt
    obtain ⟨rfl, hclean⟩ := Prod.mk.inj h
    have hclean := of_decide_eq_true hclean
    have hrestored : (a * 64 + b) / 16 % 2 ^ 8 * 16 = a * 64 + b := by omega
    simp only [encodeBytes, UInt8.toNat_ofNat', hrestored]
    congr 2
    · omega
    congr 2
    omega
  | case4 values h₁ h₂ h₃ =>
    match values, h₁, h₂, h₃, hlength with
    | [], _, _, _, _ =>
      cases h
      rfl
    | [a], _, _, _, hlength => exact absurd rfl hlength
    | [a, b], _, _, h₃, _ => exact absurd rfl (h₃ a b)
    | [a, b, c], _, h₂, _, _ => exact absurd rfl (h₂ a b c)
    | a :: b :: c :: d :: rest, h₁, _, _, _ => exact absurd rfl (h₁ a b c d rest)

theorem encodeBytes_of_decodeBytes {text bytes : Bytes} (h : decodeBytes text = .ok bytes) :
    encodeBytes bytes = text := by
  unfold decodeBytes at h
  dsimp only at h
  split at h
  next => cases h
  split at h
  next => cases h
  split at h
  next => cases h
  next values hvalues =>
    split at h
    next => cases h
    next hwhole =>
      split at h
      next bytes' hbytes =>
        cases h
        obtain ⟨hlt, pads, rfl, hpads⟩ := text_of_symbols hvalues
        rw [List.length_append, List.length_map, List.length_replicate] at hwhole
        rw [encodeBytes_of_ofSymbols hlt hbytes (by omega), show (4 - values.length % 4) % 4 = pads by omega]
      next => cases h

/-- A text is read as some bytes exactly when it is their writing. -/
theorem decode_eq_ok_iff {text : String} {bytes : Bytes} : decode text = .ok bytes ↔ text = encode bytes := by
  constructor
  · intro h
    apply Bytes.ofText_injective
    rw [encode, Bytes.ofText_latinText (encodeBytes_lt bytes), encodeBytes_of_decodeBytes h]
  · rintro rfl
    exact decode_encode bytes

end ReportRelay.Base64
