import ReportRelay.Contract.Config
import ReportRelay.Proofs.Bytes.BigEndian
import ReportRelay.Proofs.Bytes.Text
import ReportRelay.Proofs.Except

/-!
# What a config digest tells

The hashed bytes begin with the chain and the contract, one right behind the other, and go on with the terms of the
configuration. From the terms all that was hashed can be read again once the lengths of the signers and of the
transmitters are known. Where the chain ends and the contract begins cannot be told.
-/

namespace ReportRelay

/-! ## Blocks of a fixed length -/

/-- As many blocks of one length can be told from what begins with them. -/
theorem Bytes.flatten_append_inj {blocks others : List Bytes} {rest other : Bytes} {length : Nat}
    (hblocks : ∀ block ∈ blocks, block.length = length) (hothers : ∀ block ∈ others, block.length = length)
    (hcount : blocks.length = others.length) (h : blocks.flatten ++ rest = others.flatten ++ other) :
    blocks = others ∧ rest = other := by
  have hlengths : blocks.map List.length = others.map List.length := by
    rw [List.map_eq_replicate_iff.2 hblocks, List.map_eq_replicate_iff.2 hothers, hcount]
  have htotal : blocks.flatten.length = others.flatten.length := by
    rw [List.length_flatten, List.length_flatten, hlengths]
  obtain ⟨hflatten, hrest⟩ := List.append_inj h htotal
  exact ⟨List.eq_iff_flatten_eq.2 ⟨hflatten, hlengths⟩, hrest⟩

/-! ## Digests -/

theorem ChainFamily.stamp_eq_iff {family : ChainFamily} {hash other : Bytes32} :
    family.stamp hash = family.stamp other ↔ hash.val.drop 2 = other.val.drop 2 := by
  simp [stamp]

namespace ContractConfig

variable {a b config : ContractConfig} {hash : Bytes → Bytes32} {chainId contract : String} {digest : ConfigDigest}

/-- The hashed bytes have room for these numbers. -/
structure Sized (config : ContractConfig) : Prop where
  count : config.count.toNat < 2 ^ 32
  signers : config.signers.length < 2 ^ 8
  offchain : config.offchain.length < 2 ^ 32

theorem checkSizes_eq_ok_iff : config.checkSizes = .ok () ↔ config.Sized := by
  unfold checkSizes
  split
  next hcount => exact iff_of_false nofun fun h => absurd h.count (Nat.not_lt.2 hcount)
  next hcount =>
    split
    next hsigners => exact iff_of_false nofun fun h => absurd h.signers (Nat.not_lt.2 hsigners)
    next hsigners =>
      split
      next hoffchain => exact iff_of_false nofun fun h => absurd h.offchain (Nat.not_lt.2 hoffchain)
      next hoffchain =>
        exact iff_of_true rfl ⟨Nat.not_le.1 hcount, Nat.not_le.1 hsigners, Nat.not_le.1 hoffchain⟩

theorem digestBy_eq_ok_iff : config.digestBy hash chainId contract = .ok digest ↔
    config.Sized ∧ digest = family.stamp (hash (config.hashed chainId contract)) := by
  unfold digestBy
  simp only [bind_eq_ok_iff, pure_eq_ok_iff]
  constructor
  · rintro ⟨_, hsizes, rfl⟩
    exact ⟨checkSizes_eq_ok_iff.1 hsizes, rfl⟩
  · rintro ⟨hsized, rfl⟩
    exact ⟨(), checkSizes_eq_ok_iff.2 hsized, rfl⟩

theorem exists_digestBy_error_iff : (∃ e, config.digestBy hash chainId contract = .error e) ↔
    2 ^ 32 - 1 < config.count.toNat ∨ 255 < config.signers.length ∨ 2 ^ 32 - 1 < config.offchain.length := by
  simp only [exists_error_iff, digestBy_eq_ok_iff, exists_and_left, exists_eq, and_true]
  constructor
  · intro hnot
    by_contra hsizes
    exact hnot ⟨by omega, by omega, by omega⟩
  · rintro hsizes ⟨hcount, hsigners, hoffchain⟩
    omega

theorem take_bytes_of_digestBy (h : config.digestBy hash chainId contract = .ok digest) :
    digest.bytes.take 2 = [0x00, 0x02] := by
  obtain ⟨_, rfl⟩ := digestBy_eq_ok_iff.1 h
  rfl

/-! ## The hashed bytes -/

/-- The hashed bytes behind the chain and the contract. -/
def terms (config : ContractConfig) : Bytes :=
  .bigEndian 4 config.count.toNat ++ (.bigEndian 1 config.signers.length ++ (config.signers.flatten ++
    ((config.transmitters.map Bytes.ofText).flatten ++ ([config.f] ++ (.bigEndian 4 0 ++
      (.bigEndian 8 config.offchainVersion.toNat ++ (.bigEndian 4 config.offchain.length ++ config.offchain)))))))

theorem hashed_eq (chainId contract : String) (config : ContractConfig) :
    config.hashed chainId contract = .ofText (chainId ++ contract) ++ config.terms := by
  simp only [hashed, terms, Bytes.ofText_append, List.flatMap_def, List.append_assoc]

/-- All signers are of 32 bytes, and to each of them there is a transmitter of this length. -/
structure Regular (length : Nat) (config : ContractConfig) : Prop where
  signers : ∀ signer ∈ config.signers, signer.length = 32
  paired : config.transmitters.length = config.signers.length
  transmitters : ∀ transmitter ∈ config.transmitters, transmitter.utf8ByteSize = length

/-- The configurations agree in all that is hashed. -/
structure SameTerms (a b : ContractConfig) : Prop where
  count : a.count = b.count
  signers : a.signers = b.signers
  transmitters : a.transmitters = b.transmitters
  f : a.f = b.f
  offchainVersion : a.offchainVersion = b.offchainVersion
  offchain : a.offchain = b.offchain

theorem SameTerms.terms_eq (h : SameTerms a b) : a.terms = b.terms := by
  obtain ⟨hcount, hsigners, htransmitters, hf, hversion, hoffchain⟩ := h
  simp only [terms, hcount, hsigners, htransmitters, hf, hversion, hoffchain]

/-- The terms are read from the front. The signers are as many as their number says, and the transmitters as many. -/
theorem sameTerms_of_terms_eq {length : Nat} (ha : a.Sized) (hb : b.Sized) (hra : Regular length a)
    (hrb : Regular length b) (h : a.terms = b.terms) : SameTerms a b := by
  unfold terms at h
  obtain ⟨hcount, h⟩ := Bytes.bigEndian_append_inj ha.count hb.count h
  obtain ⟨hnumber, h⟩ := Bytes.bigEndian_append_inj ha.signers hb.signers h
  obtain ⟨hsigners, h⟩ := Bytes.flatten_append_inj hra.signers hrb.signers hnumber h
  have hpaired : (a.transmitters.map Bytes.ofText).length = (b.transmitters.map Bytes.ofText).length := by
    simp [hra.paired, hrb.paired, hnumber]
  have hlengths {config : ContractConfig} (hregular : Regular length config) :
      ∀ block ∈ config.transmitters.map Bytes.ofText, block.length = length := by
    simpa using hregular.transmitters
  obtain ⟨htransmitters, h⟩ := Bytes.flatten_append_inj (hlengths hra) (hlengths hrb) hpaired h
  obtain ⟨hf, h⟩ := List.append_inj h rfl
  have h := List.append_cancel_left h
  obtain ⟨hversion, h⟩ := Bytes.bigEndian_append_inj a.offchainVersion.toNat_lt b.offchainVersion.toNat_lt h
  obtain ⟨_, hoffchain⟩ := Bytes.bigEndian_append_inj ha.offchain hb.offchain h
  constructor
  case count => exact UInt64.toNat_inj.1 hcount
  case signers => exact hsigners
  case transmitters => exact (List.map_inj_right fun _ _ h => Bytes.ofText_injective h).1 htransmitters
  case f => exact (List.cons.inj hf).1
  case offchainVersion => exact UInt64.toNat_inj.1 hversion
  case offchain => exact hoffchain

/-! ## Telling digests apart -/

/-- The last 30 bytes of their hashes tell the two byte strings apart. -/
def TellsApart (hash : Bytes → Bytes32) (x y : Bytes) : Prop :=
  (hash x).val.drop 2 = (hash y).val.drop 2 → x = y

theorem TellsApart.stamp_eq_iff {x y : Bytes} (h : TellsApart hash x y) :
    family.stamp (hash x) = family.stamp (hash y) ↔ x = y := by
  rw [ChainFamily.stamp_eq_iff]
  constructor
  · exact h
  · rintro rfl
    rfl

/-- Digests of regular configurations are equal exactly if the configurations agree in all that is hashed. A digest
tells its family, and there is none exactly if a number is too large for its place. -/
theorem digest_identifies (chainId contract : String) :
    (∀ length a b, Regular length a → Regular length b → ∀ digest other,
      a.digestOf chainId contract = .ok digest → b.digestOf chainId contract = .ok other →
      TellsApart Blake2s.hash32 (a.hashed chainId contract) (b.hashed chainId contract) →
      (digest = other ↔ SameTerms a b)) ∧
    (∀ config digest, digestOf chainId contract config = .ok digest → digest.bytes.take 2 = [0x00, 0x02]) ∧
    ∀ config : ContractConfig, (∃ e, config.digestOf chainId contract = .error e) ↔
      2 ^ 32 - 1 < config.count.toNat ∨ 255 < config.signers.length ∨ 2 ^ 32 - 1 < config.offchain.length := by
  constructor
  · intro length a b hra hrb digest other ha hb happart
    obtain ⟨hsa, rfl⟩ := digestBy_eq_ok_iff.1 ha
    obtain ⟨hsb, rfl⟩ := digestBy_eq_ok_iff.1 hb
    rw [happart.stamp_eq_iff, hashed_eq, hashed_eq, List.append_cancel_left_eq]
    constructor
    · exact sameTerms_of_terms_eq hsa hsb hra hrb
    · exact SameTerms.terms_eq
  constructor
  · exact fun config digest h => take_bytes_of_digestBy h
  · exact fun config => exists_digestBy_error_iff

/-- One oracle, of whose faults none is tolerated. -/
def loneOracle : ContractConfig :=
  { empty with count := 1, signers := [List.replicate 32 7], transmitters := ["t"], offchainVersion := 2 }

/-- The same oracle with another number of faults. -/
def boldOracle : ContractConfig :=
  { loneOracle with f := 1, onchain := [1, 2] }

/-- The number of faults is in the digest. -/
theorem digest_identifies_bold : Regular 1 loneOracle ∧ Regular 1 boldOracle ∧
    TellsApart Blake2s.hash32 (loneOracle.hashed "chain" "contract") (boldOracle.hashed "chain" "contract") ∧
    ∃ digest other, loneOracle.digestOf "chain" "contract" = .ok digest ∧
      boldOracle.digestOf "chain" "contract" = .ok other ∧ digest ≠ other := by
  have hlone : Regular 1 loneOracle := ⟨by decide, rfl, by decide⟩
  have hbold : Regular 1 boldOracle := ⟨by decide, rfl, by decide⟩
  have happart : TellsApart Blake2s.hash32 (loneOracle.hashed "chain" "contract")
      (boldOracle.hashed "chain" "contract") := by
    intro hsame
    exact absurd hsame (by decide +kernel)
  refine ⟨hlone, hbold, happart, _, _, rfl, rfl, fun hsame => ?_⟩
  obtain ⟨hidentifies, _⟩ := digest_identifies "chain" "contract"
  have hterms := (hidentifies 1 loneOracle boldOracle hlone hbold _ _ rfl rfl happart).1 hsame
  exact absurd hterms.f (by decide)

/-! ## Chain and contract -/

section
variable {chainId' contract' : String} {digest' : ConfigDigest}

/-- What a digest tells of the chain and the contract is the one followed by the other. If the chains or the contracts
are equally long, it tells both. -/
theorem digest_eq_iff_joined_eq (h : config.digestOf chainId contract = .ok digest)
    (h' : config.digestOf chainId' contract' = .ok digest')
    (happart : TellsApart Blake2s.hash32 (config.hashed chainId contract) (config.hashed chainId' contract')) :
    (digest = digest' ↔ chainId ++ contract = chainId' ++ contract') ∧
      (chainId.utf8ByteSize = chainId'.utf8ByteSize ∨ contract.utf8ByteSize = contract'.utf8ByteSize →
        (chainId, contract) ≠ (chainId', contract') → digest ≠ digest') := by
  obtain ⟨_, rfl⟩ := digestBy_eq_ok_iff.1 h
  obtain ⟨_, rfl⟩ := digestBy_eq_ok_iff.1 h'
  have hjoined : family.stamp (Blake2s.hash32 (config.hashed chainId contract)) =
      family.stamp (Blake2s.hash32 (config.hashed chainId' contract')) ↔ chainId ++ contract = chainId' ++ contract' := by
    rw [happart.stamp_eq_iff, hashed_eq, hashed_eq, List.append_cancel_right_eq, Bytes.ofText_injective.eq_iff]
  refine ⟨hjoined, fun hlength hne hsame => hne ?_⟩
  have hbytes := congrArg Bytes.ofText (hjoined.1 hsame)
  rw [Bytes.ofText_append, Bytes.ofText_append] at hbytes
  have hparts : Bytes.ofText chainId = Bytes.ofText chainId' ∧ Bytes.ofText contract = Bytes.ofText contract' := by
    rcases hlength with hchains | hcontracts
    · exact List.append_inj hbytes (by simpa using hchains)
    · exact List.append_inj' hbytes (by simpa using hcontracts)
  rw [Bytes.ofText_injective hparts.1, Bytes.ofText_injective hparts.2]

end

/-- Two chains with a contract of the same address have different digests. -/
theorem digest_eq_iff_joined_eq_of_two_chains : TellsApart Blake2s.hash32
    (loneOracle.hashed "chain-a" "contract") (loneOracle.hashed "chain-b" "contract") ∧
    ∃ digest other, loneOracle.digestOf "chain-a" "contract" = .ok digest ∧
      loneOracle.digestOf "chain-b" "contract" = .ok other ∧ digest ≠ other := by
  have happart : TellsApart Blake2s.hash32 (loneOracle.hashed "chain-a" "contract")
      (loneOracle.hashed "chain-b" "contract") := by
    intro hsame
    exact absurd hsame (by decide +kernel)
  have hdigest (chainId : String) : loneOracle.digestOf chainId "contract" =
      .ok (family.stamp (Blake2s.hash32 (loneOracle.hashed chainId "contract"))) := rfl
  obtain ⟨_, hapart⟩ := digest_eq_iff_joined_eq (hdigest "chain-a") (hdigest "chain-b") happart
  exact ⟨happart, _, _, hdigest "chain-a", hdigest "chain-b", hapart (.inr rfl) (by decide)⟩

/-- Where the chain ends is not told. A letter that moves from the contract to the chain leaves the digest as it is. -/
theorem not_digest_ne_of_moved_letter : ("testing-chain", "wasm1contract") ≠ ("testing-chainw", "asm1contract") ∧
    TellsApart Blake2s.hash32 (loneOracle.hashed "testing-chain" "wasm1contract")
      (loneOracle.hashed "testing-chainw" "asm1contract") ∧
    ∃ digest, loneOracle.digestOf "testing-chain" "wasm1contract" = .ok digest ∧
      loneOracle.digestOf "testing-chainw" "asm1contract" = .ok digest := by
  have hjoined : loneOracle.hashed "testing-chain" "wasm1contract" =
      loneOracle.hashed "testing-chainw" "asm1contract" := by
    rw [hashed_eq, hashed_eq]
    rfl
  have hsame : loneOracle.digestOf "testing-chain" "wasm1contract" =
      loneOracle.digestOf "testing-chainw" "asm1contract" := by
    unfold digestOf digestBy
    rw [hjoined]
  refine ⟨by decide, fun _ => hjoined, ?_⟩
  rw [hsame]
  exact ⟨_, rfl, rfl⟩

end ContractConfig

end ReportRelay
