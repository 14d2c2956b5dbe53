import ReportRelay.Keyring
import ReportRelay.Proofs.Message.Canonical
import ReportRelay.Proofs.Text.Bech32

/-!
# Addresses of keys

The address of a key can send: it is read as the hash of the key after the human-readable part in lower case, so a
message that names it as its sender is admitted.
-/

namespace ReportRelay

theorem Ripemd160.length_hash (message : Bytes) : (hash message).length = 20 := by
  simp [hash, Word.littleEndian, Bytes.length_bigEndian]

namespace Keyring

variable {pubKey : Bytes} {hrp address : String}

theorem addressOf_eq_ok_iff :
    addressOf pubKey hrp = .ok address ↔ Bech32.encode hrp (keyHash pubKey) = .ok address := by
  unfold addressOf
  split
  next heq => simp [heq]
  next heq => simp [heq]

theorem spells_of_addressOf (h : addressOf pubKey hrp = .ok address) :
    Bech32.Spells address (Bech32.lowerCase hrp) (keyHash pubKey) :=
  Bech32.spells_of_encode (addressOf_eq_ok_iff.1 h)

/-- Every message of this sender passes the check of the sender, and is read as it was written. -/
def Sends (address : String) : Prop :=
  ∀ message : Message, message.sender = address →
    Message.checkSender message.sender = .ok () ∧ (message.Sized → Message.ofEnvelope message.toEnvelope = .ok message)

theorem sends_of_decode {parts : String × List Nat} (h : Bech32.decode address = .ok parts) : Sends address := by
  rintro message rfl
  refine ⟨Message.checkSender_eq_ok_iff.2 ⟨parts, h⟩, fun hsized => ?_⟩
  exact Message.ofEnvelope_toEnvelope_iff.2 ⟨⟨parts, h⟩, hsized⟩

/-- Whatever the key and the human-readable part are, the address that they have spells the hash of the key, can send,
and is the address of those keys only that have the same hash. -/
theorem sends_of_addressOf (h : addressOf pubKey hrp = .ok address) :
    Bech32.Spells address (Bech32.lowerCase hrp) (Ripemd160.hash (Sha256.hash pubKey)) ∧
      (Ripemd160.hash (Sha256.hash pubKey)).length = 20 ∧ Sends address ∧
      ∀ other : Bytes, addressOf other hrp = .ok address ↔ keyHash other = keyHash pubKey := by
  have hspells := spells_of_addressOf h
  have ⟨groups, _, hdecode, _⟩ := hspells
  refine ⟨hspells, Ripemd160.length_hash _, sends_of_decode hdecode, fun other => ?_⟩
  constructor
  · intro hother
    exact ((spells_of_addressOf hother).unique hspells).2
  · intro hsame
    rw [addressOf_eq_ok_iff, hsame]
    exact addressOf_eq_ok_iff.1 h

/-- The separator also stands in this human-readable part, which is in upper case. -/
theorem sends_of_addressOf_upperCase :
    Bech32.Spells "t1st1c5dkd08dtezfzqqm6upxd9msmn85gzvzahqk9f" "t1st" (Ripemd160.hash (Sha256.hash [1])) ∧
      Message.ofEnvelope (Message.send ⟨"t1st1c5dkd08dtezfzqqm6upxd9msmn85gzvzahqk9f", "", []⟩).toEnvelope =
        .ok (.send ⟨"t1st1c5dkd08dtezfzqqm6upxd9msmn85gzvzahqk9f", "", []⟩) ∧
      addressOf [] "T1ST" ≠ .ok "t1st1c5dkd08dtezfzqqm6upxd9msmn85gzvzahqk9f" := by
  have haddress : addressOf [1] "T1ST" = .ok "t1st1c5dkd08dtezfzqqm6upxd9msmn85gzvzahqk9f" := by decide +kernel
  have hlower : Bech32.lowerCase "T1ST" = "t1st" := by decide
  obtain ⟨hspells, _, hsends, hkeys⟩ := sends_of_addressOf haddress
  refine ⟨hlower ▸ hspells, (hsends (.send _) rfl).2 (Message.sized_of_length (by decide +kernel)), ?_⟩
  rw [ne_eq, hkeys []]
  decide +kernel

end Keyring

end ReportRelay
