import ReportRelay.Chain
import ReportRelay.Contract.Config
import ReportRelay.Text.Base64

/-!
# Configurations as event attributes

A contract announces its configuration as attributes of an event, in any order. There are eight kinds of them,
of which signers and transmitters may be repeated; attributes of other kinds are counted and left alone.
-/

namespace ReportRelay

inductive ConfigKey
  | count
  | f
  | digest
  | offchain
  | offchainVersion
  | onchain
  | signers
  | transmitters
  deriving DecidableEq, Repr

namespace ConfigKey

def all : List ConfigKey :=
  [count, f, digest, offchain, offchainVersion, onchain, signers, transmitters]

def name : ConfigKey → String
  | count => "config_count"
  | f => "f"
  | digest => "latest_config_digest"
  | offchain => "offchain_config"
  | offchainVersion => "offchain_config_version"
  | onchain => "onchain_config"
  | signers => "signers"
  | transmitters => "transmitters"

def ofName? (text : String) : Option ConfigKey :=
  all.find? fun key => key.name = text

def isRepeatable : ConfigKey → Bool
  | signers | transmitters => true
  | _ => false

def natOf (key : ConfigKey) (bound : Nat) (value : String) : Except Error Nat :=
  match Text.readNat bound value with
  | .ok n => .ok n
  | .error fault => .error (.codec s!"invalid {key.name} {Text.quoted value}: {fault.message}")

def bytesOf (key : ConfigKey) (value : String) : Except Error Bytes :=
  match Base64.decode value with
  | .ok bytes => .ok bytes
  | .error fault => .error (.codec s!"invalid {key.name} {Text.quoted value}: {fault.message}")

def signerOf (value : String) : Except Error Bytes :=
  match Hex.decode value with
  | .ok signer => .ok signer
  | .error fault => .error (.codec s!"invalid signer {value}: {fault.message}")

/-- The configuration with one more attribute. -/
def apply (key : ConfigKey) (value : String) (config : ContractConfig) :
    Except Error ContractConfig :=
  match key with
  | count => (key.natOf (2 ^ 64) value).map fun n => { config with count := UInt64.ofNat n }
  | f => (key.natOf (2 ^ 8) value).map fun n => { config with f := UInt8.ofNat n }
  | digest => (ConfigDigest.ofHex value).map fun digest => { config with digest }
  | offchain => (key.bytesOf value).map fun offchain => { config with offchain }
  | offchainVersion =>
    (key.natOf (2 ^ 64) value).map fun n => { config with offchainVersion := UInt64.ofNat n }
  | onchain => (key.bytesOf value).map fun onchain => { config with onchain }
  | signers => (signerOf value).map fun signer => { config with signers := config.signers ++ [signer] }
  | transmitters => .ok { config with transmitters := config.transmitters ++ [value] }

end ConfigKey

namespace ContractConfig

/-- A configuration of which some attributes are read. -/
structure Partial where
  config : ContractConfig
  /-- Each key once, in the order in which the keys came up. -/
  seen : List ConfigKey
  /-- The keys that are not known, in the order in which the attributes came. -/
  unknown : List String
  deriving DecidableEq, Repr

def Partial.start : Partial := ⟨.empty, [], []⟩

def Partial.add (state : Partial) (attr : EventAttribute) : Except Error Partial :=
  match ConfigKey.ofName? attr.key with
  | none => .ok { state with unknown := state.unknown ++ [attr.key] }
  | some key => do
    let config ← key.apply attr.value state.config
    if key ∈ state.seen then
      if key.isRepeatable then return { state with config }
      else throw (.codec s!"duplicate attribute {key.name}")
    else return { state with config, seen := state.seen ++ [key] }

/-- The configuration, if every kind of attribute was there. -/
def Partial.finish (state : Partial) : Except Error (ContractConfig × List String) :=
  if state.seen.length = ConfigKey.all.length then .ok (state.config, state.unknown)
  else
    let found := Text.quotedList ((state.seen.map ConfigKey.name).mergeSort)
    .error (.codec (s!"expected {ConfigKey.all.length} types of known keys, "
      ++ s!"but found {state.seen.length}: {found}"))

/-- The configuration that the attributes say, and the keys that are not known. -/
def ofAttributes (attributes : List EventAttribute) :
    Except Error (ContractConfig × List String) := do
  (← attributes.foldlM Partial.add Partial.start).finish

end ContractConfig

end ReportRelay
