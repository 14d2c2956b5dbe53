import ReportRelay.Proofs.Bytes.Text
import ReportRelay.Proofs.Except
import ReportRelay.Proofs.Protobuf.Varint

/-!
# Fields of messages

A field that is written is read as it was, whatever follows it, as long as its length has 64 bits. Whatever a reader
takes in, known to it or not, it takes from the bytes that it was given.
-/

namespace ReportRelay.Protobuf

variable {μ α : Type} {tag : Nat} {bytes rest input : Bytes} {merge : MergeField μ} {depth : Nat}
  {message later final : μ}

/-! ## Reading what was written -/

theorem readKey_writeVarint (rest : Bytes) (hpos : 0 < tag) (hlt : tag < 2 ^ 29) :
    readKey (writeVarint (8 * tag + 2) ++ rest) = .ok (⟨tag, .lengthDelimited⟩, rest) := by
  have htype : (8 * tag + 2) % 8 = 2 := by omega
  have htag : (8 * tag + 2) / 8 = tag := by omega
  have hwire : WireType.ofNat? 2 = some .lengthDelimited := rfl
  unfold readKey
  rw [readVarint_writeVarint rest (by omega), ok_bind]
  dsimp only
  rw [if_neg (by omega), htype, htag, hwire]
  dsimp only
  rw [if_neg (by omega)]

theorem takeBytes_append (bytes rest : Bytes) : takeBytes bytes.length (bytes ++ rest) = .ok (bytes, rest) := by
  unfold takeBytes
  rw [if_pos (by simp), List.take_left, List.drop_left]

theorem readBytes_append (rest : Bytes) (h : bytes.length < 2 ^ 64) :
    readBytes .lengthDelimited (writeVarint bytes.length ++ (bytes ++ rest)) = .ok (bytes, rest) := by
  unfold readBytes expectDelimited
  rw [if_pos rfl, ok_bind, readVarint_writeVarint _ h, ok_bind]
  exact takeBytes_append bytes rest

theorem readText_append {text : String} (rest : Bytes) (h : (Bytes.ofText text).length < 2 ^ 64) :
    readText .lengthDelimited (writeVarint (Bytes.ofText text).length ++ (Bytes.ofText text ++ rest)) =
      .ok (text, rest) := by
  unfold readText
  rw [readBytes_append rest h, ok_bind]
  dsimp only
  rw [Bytes.toText?_ofText]

/-- Whatever follows them, these bytes take a message from one state to another. -/
def Absorbs (merge : MergeField μ) (depth : Nat) (message : μ) (bytes : Bytes) (later : μ) : Prop :=
  ∀ limit fuel rest, limit ≤ rest.length → (bytes ++ rest).length ≤ fuel →
    ∃ left, rest.length ≤ left ∧
      mergeUntil merge limit depth fuel message (bytes ++ rest) = mergeUntil merge limit depth left later rest

namespace Absorbs

theorem nil : Absorbs merge depth message [] message :=
  fun _ fuel _ _ hfuel => ⟨fuel, hfuel, rfl⟩

theorem append {more : Bytes} (first : Absorbs merge depth message bytes later)
    (second : Absorbs merge depth later more final) : Absorbs merge depth message (bytes ++ more) final := by
  intro limit fuel rest hlimit hfuel
  rw [List.append_assoc] at hfuel ⊢
  have hroom : limit ≤ (more ++ rest).length := by
    rw [List.length_append]
    omega
  obtain ⟨fuel', hfuel', hfirst⟩ := first limit fuel (more ++ rest) hroom hfuel
  obtain ⟨left, hleft, hsecond⟩ := second limit fuel' rest hlimit hfuel'
  exact ⟨left, hleft, hfirst.trans hsecond⟩

/-- A field is absorbed if its content can be merged. -/
theorem delimited (hpos : 0 < tag) (hlt : tag < 2 ^ 29)
    (h : ∀ rest, merge message depth ⟨tag, .lengthDelimited⟩ (writeVarint bytes.length ++ (bytes ++ rest)) =
      .ok (later, rest)) : Absorbs merge depth message (writeDelimited tag bytes) later := by
  intro limit fuel rest hlimit hfuel
  have hshape : writeDelimited tag bytes ++ rest =
      writeVarint (8 * tag + 2) ++ (writeVarint bytes.length ++ (bytes ++ rest)) := by
    simp [writeDelimited]
  have hkey := length_writeVarint_pos (8 * tag + 2)
  rw [hshape] at hfuel ⊢
  rw [List.length_append, List.length_append, List.length_append] at hfuel
  obtain ⟨left, rfl⟩ : ∃ left, fuel = left + 1 := ⟨fuel - 1, by omega⟩
  refine ⟨left, by omega, ?_⟩
  rw [mergeUntil, if_neg (by simp only [List.length_append]; omega), readKey_writeVarint _ hpos hlt, ok_bind]
  dsimp only
  rw [h, ok_bind]

/-- A field that is read as bytes and put into the message. An empty one is not written, so the message must be
without it already. -/
theorem bytesField {field : String} (put : Bytes → μ) (hpos : 0 < tag) (hlt : tag < 2 ^ 29)
    (hsize : bytes.length < 2 ^ 64) (hempty : put [] = message)
    (hmerge : ∀ input, merge message depth ⟨tag, .lengthDelimited⟩ input = inField field (do
      let (bytes, rest) ← readBytes .lengthDelimited input
      return (put bytes, rest))) :
    Absorbs merge depth message (writeBytes tag bytes) (put bytes) := by
  unfold writeBytes
  split
  next hnil =>
    rw [List.isEmpty_iff.1 hnil, hempty]
    exact .nil
  next =>
    refine .delimited hpos hlt fun rest => ?_
    rw [hmerge, readBytes_append rest hsize, ok_bind]
    rfl

theorem textField {field text : String} (put : String → μ) (hpos : 0 < tag) (hlt : tag < 2 ^ 29)
    (hsize : (Bytes.ofText text).length < 2 ^ 64) (hempty : put "" = message)
    (hmerge : ∀ input, merge message depth ⟨tag, .lengthDelimited⟩ input = inField field (do
      let (text, rest) ← readText .lengthDelimited input
      return (put text, rest))) :
    Absorbs merge depth message (writeText tag text) (put text) := by
  unfold writeText writeBytes
  split
  next hnil =>
    rw [Bytes.ofText_eq_nil_iff.1 (List.isEmpty_iff.1 hnil), hempty]
    exact .nil
  next =>
    refine .delimited hpos hlt fun rest => ?_
    rw [hmerge, readText_append rest hsize, ok_bind]
    rfl

theorem read {empty : μ} (h : Absorbs merge maxDepth empty bytes message) :
    readMessage merge empty bytes = .ok message := by
  obtain ⟨left, _, hread⟩ := h 0 bytes.length [] (Nat.le_refl 0) (by simp)
  rw [List.append_nil] at hread
  rw [readMessage, hread]
  cases left <;> rfl

theorem readNested {empty : μ} (h : Absorbs merge depth empty bytes message) (hlt : bytes.length < 2 ^ 64)
    (rest : Bytes) : Protobuf.readNested merge empty (depth + 1) .lengthDelimited
      (writeVarint bytes.length ++ (bytes ++ rest)) = .ok (message, rest) := by
  have hlimit : (bytes ++ rest).length - bytes.length = rest.length := by
    rw [List.length_append]
    omega
  obtain ⟨left, _, hread⟩ := h rest.length (bytes ++ rest).length rest (Nat.le_refl _) (Nat.le_refl _)
  have hend : mergeUntil merge rest.length depth left message rest = .ok (message, rest) := by
    cases left with
    | zero => rfl
    | succ left => rw [mergeUntil, if_pos (Nat.le_refl _)]
  unfold Protobuf.readNested expectDelimited
  rw [if_pos rfl, ok_bind, if_neg (Nat.succ_ne_zero depth)]
  change (readVarint (writeVarint bytes.length ++ (bytes ++ rest)) >>= _) = _
  rw [readVarint_writeVarint _ hlt, ok_bind]
  dsimp only
  rw [if_neg (by rw [List.length_append]; omega)]
  change (mergeUntil merge ((bytes ++ rest).length - bytes.length) depth (bytes ++ rest).length empty
    (bytes ++ rest) >>= _) = _
  rw [hlimit, hread, hend, ok_bind]
  dsimp only
  rw [if_pos rfl]

/-- A field that is there once for each item, and whose content is a message. -/
theorem repeated {ι : Type} {field : String} {inner : MergeField ι} {empty : ι} {write : ι → Bytes}
    {items : List ι} (put : List ι → μ) (hpos : 0 < tag) (hlt : tag < 2 ^ 29)
    (hitems : ∀ item ∈ items, (write item).length < 2 ^ 64 ∧ Absorbs inner depth empty (write item) item)
    (hmerge : ∀ items input, merge (put items) (depth + 1) ⟨tag, .lengthDelimited⟩ input = inField field (do
      let (item, rest) ← Protobuf.readNested inner empty (depth + 1) .lengthDelimited input
      return (put (items ++ [item]), rest))) (before : List ι) :
    Absorbs merge (depth + 1) (put before) (items.flatMap fun item => writeDelimited tag (write item))
      (put (before ++ items)) := by
  induction items generalizing before with
  | nil =>
    rw [List.append_nil]
    exact .nil
  | cons item items ih =>
    obtain ⟨⟨hsize, hitem⟩, hitems⟩ := List.forall_mem_cons.1 hitems
    have first : Absorbs merge (depth + 1) (put before) (writeDelimited tag (write item)) (put (before ++ [item])) :=
      .delimited hpos hlt fun rest => by rw [hmerge, hitem.readNested hsize rest]; rfl
    have later := ih hitems (before ++ [item])
    rw [List.append_assoc] at later
    exact first.append later

end Absorbs

/-! ## How long fields are -/

theorem length_le_writeBytes (tag : Nat) (bytes : Bytes) : bytes.length ≤ (writeBytes tag bytes).length := by
  unfold writeBytes writeDelimited
  split
  next hnil => simp [List.isEmpty_iff.1 hnil]
  next =>
    simp only [List.length_append]
    omega

theorem length_le_flatMap_writeDelimited {ι : Type} (tag : Nat) (write : ι → Bytes) {item : ι} {items : List ι}
    (h : item ∈ items) :
    (write item).length ≤ (items.flatMap fun item => writeDelimited tag (write item)).length := by
  have hmem : writeDelimited tag (write item) ∈ items.map fun item => writeDelimited tag (write item) :=
    List.mem_map_of_mem h
  have hfield := (List.sublist_flatten_of_mem hmem).length_le
  rw [← List.flatMap_def] at hfield
  simp only [writeDelimited, List.length_append] at hfield ⊢
  omega

theorem length_writeBytes_le (htag : tag < 16) (bytes : Bytes) :
    (writeBytes tag bytes).length ≤ 1 + (writeVarint bytes.length).length + bytes.length := by
  unfold writeBytes writeDelimited
  split
  · exact Nat.zero_le _
  · rw [writeVarint_of_lt (by omega)]
    simp only [List.length_append, List.length_singleton]
    omega

/-! ## What reading takes -/

theorem of_inField {field : String} {read : Except Fault α} {a : α} (h : inField field read = .ok a) :
    read = .ok a := by
  cases read with
  | ok b => exact h
  | error fault => cases h

theorem of_readKey {key : Key} (h : readKey input = .ok (key, rest)) : rest.length < input.length := by
  obtain ⟨⟨n, rest'⟩, hvarint, h⟩ := bind_eq_ok_iff.1 h
  obtain ⟨_, hlength⟩ := of_readVarint hvarint
  have hpos := length_writeVarint_pos n
  dsimp only at h
  split at h
  · cases h
  · split at h
    · cases h
    · split at h
      · cases h
      · cases h
        omega

theorem of_takeBytes {n : Nat} (h : takeBytes n input = .ok (bytes, rest)) :
    bytes.length = n ∧ n + rest.length = input.length := by
  unfold takeBytes at h
  split at h
  next hn =>
    cases h
    rw [List.length_take, List.length_drop]
    omega
  next => cases h

theorem of_readBytes {wireType : WireType} (h : readBytes wireType input = .ok (bytes, rest)) :
    bytes.length < 2 ^ 64 ∧
      (writeVarint bytes.length).length + bytes.length + rest.length ≤ input.length := by
  obtain ⟨_, _, h⟩ := bind_eq_ok_iff.1 h
  obtain ⟨⟨n, rest'⟩, hvarint, h⟩ := bind_eq_ok_iff.1 h
  obtain ⟨hn, hlength⟩ := of_readVarint hvarint
  obtain ⟨rfl, htake⟩ := of_takeBytes h
  exact ⟨hn, by omega⟩

theorem of_readText {wireType : WireType} {text : String} (h : readText wireType input = .ok (text, rest)) :
    (Bytes.ofText text).length < 2 ^ 64 ∧
      (writeVarint (Bytes.ofText text).length).length + (Bytes.ofText text).length + rest.length ≤
        input.length := by
  obtain ⟨⟨bytes, rest'⟩, hbytes, h⟩ := bind_eq_ok_iff.1 h
  dsimp only at h
  split at h
  · cases h
  next text' htext =>
    cases h
    rw [Bytes.ofText_of_toText? htext]
    exact of_readBytes hbytes

theorem of_map_snd {β : Type} {read : Except Fault (β × Bytes)} (h : read.map Prod.snd = .ok rest) :
    ∃ b, read = .ok (b, rest) := by
  cases read with
  | error fault => cases h
  | ok read =>
    cases h
    exact ⟨read.1, rfl⟩

theorem length_of_skipValue {group : Bytes → Except Fault Bytes} {wireType : WireType}
    (hgroup : ∀ {input rest}, group input = .ok rest → rest.length ≤ input.length)
    (h : skipValue group depth wireType input = .ok rest) : rest.length ≤ input.length := by
  unfold skipValue at h
  split at h
  · cases h
  cases wireType with
  | varint =>
    obtain ⟨n, hread⟩ := of_map_snd h
    have := (of_readVarint hread).2
    omega
  | thirtyTwoBit | sixtyFourBit =>
    obtain ⟨bytes, hread⟩ := of_map_snd h
    have := (of_takeBytes hread).2
    omega
  | lengthDelimited =>
    obtain ⟨⟨n, rest'⟩, hvarint, h⟩ := bind_eq_ok_iff.1 h
    obtain ⟨bytes, hread⟩ := of_map_snd h
    have hlength := (of_readVarint hvarint).2
    have htake := (of_takeBytes hread).2
    omega
  | startGroup => exact hgroup h
  | endGroup => cases h

theorem length_of_skipGroup {fuel : Nat} (h : skipGroup fuel depth tag input = .ok rest) :
    rest.length ≤ input.length := by
  induction fuel generalizing depth tag input rest with
  | zero => cases h
  | succ fuel ih =>
    obtain ⟨⟨key, rest'⟩, hkey, h⟩ := bind_eq_ok_iff.1 h
    have hlength := of_readKey hkey
    dsimp only at h
    split at h
    · split at h
      · cases h
        omega
      · cases h
    · obtain ⟨rest'', hskip, h⟩ := bind_eq_ok_iff.1 h
      have hvalue := length_of_skipValue (fun hgroup => ih hgroup) hskip
      have hrest := ih h
      omega

theorem of_unknownField {key : Key} (h : unknownField message depth key input = .ok (later, rest)) :
    later = message ∧ rest.length ≤ input.length := by
  obtain ⟨rest', hskip, h⟩ := bind_eq_ok_iff.1 h
  cases h
  exact ⟨rfl, length_of_skipValue (fun hgroup => length_of_skipGroup hgroup) hskip⟩

/-- What every field preserves of a message and the bytes behind it holds in the end. -/
theorem mergeUntil_induction {P : μ → Bytes → Prop} {limit fuel : Nat}
    (step : ∀ {message later key input middle rest}, P message input → readKey input = .ok (key, middle) →
      merge message depth key middle = .ok (later, rest) → P later rest)
    (h : mergeUntil merge limit depth fuel message input = .ok (later, rest)) (hstart : P message input) :
    P later rest := by
  induction fuel generalizing message input with
  | zero =>
    cases h
    exact hstart
  | succ fuel ih =>
    unfold mergeUntil at h
    split at h
    · cases h
      exact hstart
    · obtain ⟨⟨key, middle⟩, hkey, h⟩ := bind_eq_ok_iff.1 h
      obtain ⟨⟨next, rest'⟩, hmerge, h⟩ := bind_eq_ok_iff.1 h
      exact ih h (step hstart hkey hmerge)

theorem exists_of_readMessage {empty : μ} (h : readMessage merge empty input = .ok message) :
    ∃ rest, mergeUntil merge 0 maxDepth input.length empty input = .ok (message, rest) := by
  unfold readMessage at h
  cases hread : mergeUntil merge 0 maxDepth input.length empty input with
  | error fault =>
    rw [hread] at h
    cases h
  | ok read =>
    rw [hread] at h
    cases h
    exact ⟨read.2, rfl⟩

/-- A nested message is read from as many bytes as the field says, which are fewer than 64 bits count. -/
theorem exists_of_readNested {empty : μ} {wireType : WireType}
    (h : readNested merge empty depth wireType input = .ok (message, rest)) :
    ∃ fuel inner, inner.length < rest.length + 2 ^ 64 ∧ inner.length ≤ input.length ∧
      mergeUntil merge rest.length (depth - 1) fuel empty inner = .ok (message, rest) := by
  obtain ⟨_, _, h⟩ := bind_eq_ok_iff.1 h
  dsimp only at h
  split at h
  · cases h
  obtain ⟨⟨n, inner⟩, hvarint, h⟩ := bind_eq_ok_iff.1 h
  obtain ⟨hn, hlength⟩ := of_readVarint hvarint
  dsimp only at h
  split at h
  · cases h
  obtain ⟨⟨message', rest'⟩, hmerge, h⟩ := bind_eq_ok_iff.1 h
  dsimp only at h
  split at h
  next hlimit =>
    cases h
    rw [← hlimit] at hmerge
    exact ⟨_, inner, by omega, by omega, hmerge⟩
  next => cases h

end ReportRelay.Protobuf
