import Mathlib.Data.List.Basic
import ReportRelay.Contract.Attributes
import ReportRelay.Proofs.Except
import ReportRelay.Proofs.Text.Base64
import ReportRelay.Proofs.Text.Hex
import ReportRelay.Proofs.Text.Integer

/-!
# What one attribute says

Each part of a configuration has texts that it is written with: numerals for a number, base 64 for bytes, hexadecimal
in either case for a digest or a signer. Taking an attribute of some kind sets the part that its value is written
for and leaves the other parts alone, and it succeeds exactly for these texts.
-/

namespace ReportRelay

namespace ContractConfig

/-- The values are what this part of the configuration is written with. Of a single kind there may be none, and
then the configuration is free. -/
def WrittenAs (config : ContractConfig) : ConfigKey → List String → Prop
  | .count, values => ∀ value ∈ values, Text.Numeral config.count.toNat value
  | .f, values => ∀ value ∈ values, Text.Numeral config.f.toNat value
  | .digest, values => ∀ value ∈ values, value.toLower = Hex.encode config.digest.bytes
  | .offchain, values => ∀ value ∈ values, value = Base64.encode config.offchain
  | .offchainVersion, values => ∀ value ∈ values, Text.Numeral config.offchainVersion.toNat value
  | .onchain, values => ∀ value ∈ values, value = Base64.encode config.onchain
  | .signers, values => values.map String.toLower = config.signers.map Hex.encode
  | .transmitters, values => values = config.transmitters

end ContractConfig

namespace ConfigKey

theorem mem_all (key : ConfigKey) : key ∈ all := by
  cases key <;> decide

theorem all_nodup : all.Nodup := by
  decide

theorem name_injective {key other : ConfigKey} : key.name = other.name → key = other := by
  cases key <;> cases other <;> decide

theorem ofName?_eq_some_iff {text : String} {key : ConfigKey} : ofName? text = some key ↔ text = key.name := by
  constructor
  · intro h
    unfold ofName? at h
    have hname := List.find?_some h
    exact (of_decide_eq_true hname).symm
  · rintro rfl
    cases key <;> decide

/-- The values of a kind, in the order in which they come. -/
def valuesOf (key : ConfigKey) (attributes : List EventAttribute) : List String :=
  (attributes.filter fun attr => attr.key = key.name).map EventAttribute.value

/-- The value is one that some configuration is written with. -/
def WellFormed (key : ConfigKey) (value : String) : Prop :=
  ∃ config : ContractConfig, config.WrittenAs key [value]

theorem valuesOf_append (key : ConfigKey) (before after : List EventAttribute) :
    key.valuesOf (before ++ after) = key.valuesOf before ++ key.valuesOf after := by
  rw [valuesOf, List.filter_append, List.map_append, valuesOf, valuesOf]

theorem valuesOf_own {key : ConfigKey} {attr : EventAttribute} (h : attr.key = key.name) :
    key.valuesOf [attr] = [attr.value] := by
  rw [valuesOf, List.filter_singleton, decide_eq_true h]
  rfl

theorem valuesOf_other {key : ConfigKey} {attr : EventAttribute} (h : attr.key ≠ key.name) :
    key.valuesOf [attr] = [] := by
  rw [valuesOf, List.filter_singleton, decide_eq_false h]
  rfl

/-! ## One value -/

theorem natOf_eq_ok_iff {key : ConfigKey} {bound n : Nat} {value : String} (hbound : 0 < bound) :
    key.natOf bound value = .ok n ↔ Text.Numeral n value ∧ n < bound := by
  rw [← Text.readNat_eq_ok_iff hbound, natOf]
  cases Text.readNat bound value with
  | ok m => simp only [Except.ok.injEq]
  | error fault => exact iff_of_false nofun nofun

theorem bytesOf_eq_ok_iff {key : ConfigKey} {value : String} {bytes : Bytes} :
    key.bytesOf value = .ok bytes ↔ value = Base64.encode bytes := by
  rw [← Base64.decode_eq_ok_iff, bytesOf]
  cases Base64.decode value with
  | ok bytes' => simp only [Except.ok.injEq]
  | error fault => exact iff_of_false nofun nofun

theorem signerOf_eq_ok_iff {value : String} {signer : Bytes} :
    signerOf value = .ok signer ↔ value.toLower = Hex.encode signer := by
  rw [← Hex.decode_eq_ok_iff, signerOf]
  cases Hex.decode value with
  | ok signer' => simp only [Except.ok.injEq]
  | error fault => exact iff_of_false nofun nofun

end ConfigKey

theorem ConfigDigest.ofBytes_eq_ok_iff {bytes : Bytes} {digest : ConfigDigest} :
    ConfigDigest.ofBytes bytes = .ok digest ↔ bytes = digest.bytes := by
  unfold ConfigDigest.ofBytes Bytes32.ofBytes?
  by_cases hlength : bytes.length = 32
  · rw [dif_pos hlength]
    constructor
    · rintro ⟨⟩
      rfl
    · rintro rfl
      rfl
  · rw [dif_neg hlength]
    refine iff_of_false nofun ?_
    rintro rfl
    exact hlength digest.word.property

theorem ConfigDigest.ofHex_eq_ok_iff {text : String} {digest : ConfigDigest} :
    ConfigDigest.ofHex text = .ok digest ↔ text.toLower = Hex.encode digest.bytes := by
  rw [← Hex.decode_eq_ok_iff, ConfigDigest.ofHex]
  cases Hex.decode text with
  | ok bytes => rw [ofBytes_eq_ok_iff, Except.ok.injEq]
  | error fault => exact iff_of_false nofun nofun

namespace ConfigKey

/-- A value that is taken becomes the last one of its kind. -/
theorem writtenAs_of_apply {key : ConfigKey} {value : String} {config config' : ContractConfig} {values : List String}
    (h : key.apply value config = .ok config') (hwritten : config.WrittenAs key values)
    (hfree : key.isRepeatable ∨ values = []) : config'.WrittenAs key (values ++ [value]) := by
  cases key with
  | count | offchainVersion =>
    obtain rfl := hfree.resolve_left nofun
    obtain ⟨n, hn, rfl⟩ := map_eq_ok_iff.1 h
    obtain ⟨hvalue, hlt⟩ := (natOf_eq_ok_iff (by decide)).1 hn
    refine List.forall_mem_singleton.2 ?_
    exact (UInt64.toNat_ofNat_of_lt' hlt).symm ▸ hvalue
  | f =>
    obtain rfl := hfree.resolve_left nofun
    obtain ⟨n, hn, rfl⟩ := map_eq_ok_iff.1 h
    obtain ⟨hvalue, hlt⟩ := (natOf_eq_ok_iff (by decide)).1 hn
    refine List.forall_mem_singleton.2 ?_
    exact (UInt8.toNat_ofNat_of_lt' hlt).symm ▸ hvalue
  | digest =>
    obtain rfl := hfree.resolve_left nofun
    obtain ⟨digest, hdigest, rfl⟩ := map_eq_ok_iff.1 h
    exact List.forall_mem_singleton.2 (ConfigDigest.ofHex_eq_ok_iff.1 hdigest)
  | offchain | onchain =>
    obtain rfl := hfree.resolve_left nofun
    obtain ⟨bytes, hbytes, rfl⟩ := map_eq_ok_iff.1 h
    exact List.forall_mem_singleton.2 (bytesOf_eq_ok_iff.1 hbytes)
  | signers =>
    obtain ⟨signer, hsigner, rfl⟩ := map_eq_ok_iff.1 h
    show (values ++ [value]).map String.toLower = (config.signers ++ [signer]).map Hex.encode
    rw [List.map_append, List.map_append, show values.map String.toLower = config.signers.map Hex.encode from hwritten,
      List.map_singleton, List.map_singleton, signerOf_eq_ok_iff.1 hsigner]
  | transmitters =>
    cases h
    exact congrArg (· ++ [value]) hwritten

/-- The other kinds are left alone. -/
theorem writtenAs_other_of_apply {key other : ConfigKey} {value : String} {config config' : ContractConfig}
    (h : key.apply value config = .ok config') (hne : other ≠ key) (values : List String) :
    config'.WrittenAs other values ↔ config.WrittenAs other values := by
  cases key with
  | transmitters =>
    cases h
    cases other <;> first | exact absurd rfl hne | exact Iff.rfl
  | _ =>
    obtain ⟨_, -, rfl⟩ := map_eq_ok_iff.1 h
    cases other <;> first | exact absurd rfl hne | exact Iff.rfl

theorem exists_apply_of_wellFormed {key : ConfigKey} {value : String} (h : key.WellFormed value)
    (config : ContractConfig) : ∃ config', key.apply value config = .ok config' := by
  obtain ⟨written, hwritten⟩ := h
  have hmem := List.mem_singleton_self value
  cases key with
  | count | offchainVersion =>
    exact ⟨_, map_eq_ok_iff.2 ⟨_, (natOf_eq_ok_iff (by decide)).2 ⟨hwritten value hmem, UInt64.toNat_lt _⟩, rfl⟩⟩
  | f =>
    exact ⟨_, map_eq_ok_iff.2 ⟨_, (natOf_eq_ok_iff (by decide)).2 ⟨hwritten value hmem, UInt8.toNat_lt _⟩, rfl⟩⟩
  | digest =>
    exact ⟨_, map_eq_ok_iff.2 ⟨_, ConfigDigest.ofHex_eq_ok_iff.2 (hwritten value hmem), rfl⟩⟩
  | offchain | onchain =>
    exact ⟨_, map_eq_ok_iff.2 ⟨_, bytesOf_eq_ok_iff.2 (hwritten value hmem), rfl⟩⟩
  | signers =>
    obtain ⟨signer, -, hsigner⟩ := List.map_eq_singleton_iff.1 (Eq.symm hwritten)
    exact ⟨_, map_eq_ok_iff.2 ⟨_, signerOf_eq_ok_iff.2 hsigner.symm, rfl⟩⟩
  | transmitters => exact ⟨_, rfl⟩

/-- Whether a value is taken does not depend on what is read before it. -/
theorem exists_apply_of_apply {key : ConfigKey} {value : String} {config config' : ContractConfig}
    (h : key.apply value config = .ok config') (other : ContractConfig) :
    ∃ other', key.apply value other = .ok other' := by
  cases key with
  | transmitters => exact ⟨_, rfl⟩
  | _ =>
    obtain ⟨a, ha, -⟩ := map_eq_ok_iff.1 h
    exact ⟨_, map_eq_ok_iff.2 ⟨a, ha, rfl⟩⟩

theorem empty_writtenAs (key : ConfigKey) : ContractConfig.empty.WrittenAs key [] := by
  cases key <;> first | exact List.forall_mem_nil _ | rfl

theorem wellFormed_of_apply {key : ConfigKey} {value : String} {config config' : ContractConfig}
    (h : key.apply value config = .ok config') : key.WellFormed value := by
  obtain ⟨written, hwritten⟩ := exists_apply_of_apply h .empty
  exact ⟨written, writtenAs_of_apply hwritten (empty_writtenAs key) (.inr rfl)⟩

end ConfigKey

/-- A configuration is determined by what it is written with, if each single kind is written at all. -/
theorem ContractConfig.eq_of_writtenAs {config config' : ContractConfig} {values : ConfigKey → List String}
    (hsome : ∀ key : ConfigKey, key.isRepeatable = false → values key ≠ [])
    (h : ∀ key, config.WrittenAs key (values key)) (h' : ∀ key, config'.WrittenAs key (values key)) :
    config = config' := by
  have hvalue (key : ConfigKey) (hsingle : key.isRepeatable = false) : ∃ value, value ∈ values key :=
    List.exists_mem_of_ne_nil _ (hsome key hsingle)
  have hcount : config.count = config'.count := by
    obtain ⟨value, hmem⟩ := hvalue .count rfl
    exact UInt64.toNat_inj.1 ((h .count value hmem).unique (h' .count value hmem))
  have hf : config.f = config'.f := by
    obtain ⟨value, hmem⟩ := hvalue .f rfl
    exact UInt8.toNat_inj.1 ((h .f value hmem).unique (h' .f value hmem))
  have hversion : config.offchainVersion = config'.offchainVersion := by
    obtain ⟨value, hmem⟩ := hvalue .offchainVersion rfl
    exact UInt64.toNat_inj.1 ((h .offchainVersion value hmem).unique (h' .offchainVersion value hmem))
  have hdigest : config.digest = config'.digest := by
    obtain ⟨value, hmem⟩ := hvalue .digest rfl
    exact Except.ok.inj ((ConfigDigest.ofHex_eq_ok_iff.2 (h .digest value hmem)).symm.trans
      (ConfigDigest.ofHex_eq_ok_iff.2 (h' .digest value hmem)))
  have hoffchain : config.offchain = config'.offchain := by
    obtain ⟨value, hmem⟩ := hvalue .offchain rfl
    exact Base64.encode_injective ((h .offchain value hmem).symm.trans (h' .offchain value hmem))
  have honchain : config.onchain = config'.onchain := by
    obtain ⟨value, hmem⟩ := hvalue .onchain rfl
    exact Base64.encode_injective ((h .onchain value hmem).symm.trans (h' .onchain value hmem))
  have hsigners : config.signers = config'.signers :=
    List.map_injective_iff.2 Hex.encode_injective (Eq.trans (Eq.symm (h .signers)) (h' .signers))
  have htransmitters : config.transmitters = config'.transmitters :=
    Eq.trans (Eq.symm (h .transmitters)) (h' .transmitters)
  cases config
  cases config'
  simp_all only

end ReportRelay
