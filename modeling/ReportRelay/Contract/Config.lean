import ReportRelay.Contract.Digest
import ReportRelay.Hash.Blake2s

/-!
# Oracle configurations

The configuration that is set on a contract, and its digest. The digest covers the chain, the contract and all
of the configuration but the part that stays on the chain.
-/

namespace ReportRelay

structure ContractConfig where
  digest : ConfigDigest
  count : UInt64
  signers : List Bytes
  transmitters : List String
  f : UInt8
  onchain : Bytes
  offchainVersion : UInt64
  offchain : Bytes
  deriving DecidableEq, Repr

namespace ContractConfig

def empty : ContractConfig where
  digest := .zero
  count := 0
  signers := []
  transmitters := []
  f := 0
  onchain := []
  offchainVersion := 0
  offchain := []

/-- What is hashed. Of the part on the chain there is only its length, which is taken to be zero. -/
def hashed (chainId contract : String) (config : ContractConfig) : Bytes :=
  Bytes.ofText chainId
    ++ .ofText contract
    ++ .bigEndian 4 config.count.toNat
    ++ .bigEndian 1 config.signers.length
    ++ config.signers.flatten
    ++ config.transmitters.flatMap Bytes.ofText
    ++ [config.f]
    ++ .bigEndian 4 0
    ++ .bigEndian 8 config.offchainVersion.toNat
    ++ .bigEndian 4 config.offchain.length
    ++ config.offchain

/-- Numbers that the hashed bytes have no room for. -/
def checkSizes (config : ContractConfig) : Except Error Unit :=
  if 2 ^ 32 ≤ config.count.toNat then
    .error (.codec s!"config count {config.count.toNat} overflows u32")
  else if 2 ^ 8 ≤ config.signers.length then
    .error (.codec s!"too many signers: {config.signers.length}")
  else if 2 ^ 32 ≤ config.offchain.length then .error (.codec "offchain config too large")
  else .ok ()

def family : ChainFamily := .cosmwasm

/-- The digest by a given hash. -/
def digestBy (hash : Bytes → Bytes32) (chainId contract : String) (config : ContractConfig) :
    Except Error ConfigDigest := do
  config.checkSizes
  return family.stamp (hash (config.hashed chainId contract))

def digestOf (chainId contract : String) (config : ContractConfig) : Except Error ConfigDigest :=
  config.digestBy Blake2s.hash32 chainId contract

end ContractConfig

end ReportRelay
