import ReportRelay.Files
import ReportRelay.Settings.Chain
import ReportRelay.Settings.Placeholder
import ReportRelay.Toml.Document
import ReportRelay.Toml.Field

/-!
# Settings file

The settings of the store and of the chain come from one file. Its placeholders are filled in before it is
read as TOML. What is wrong with the store comes before what is wrong with the chain.
-/

namespace ReportRelay

structure DatabaseSettings where
  url : String
  maxConnections : Nat
  minConnections : Nat
  deriving DecidableEq, Repr

structure Settings where
  database : DatabaseSettings
  chain : ChainSettings
  deriving DecidableEq, Repr

inductive SettingsFault
  | unreadable (path : String) (fault : FileFault)
  | malformed
  | noDatabaseUrl
  | noConnections
  | chain (chainId : String) (fault : ChainFault)
  deriving DecidableEq, Repr

namespace SettingsFault

def message : SettingsFault → String
  | unreadable path fault => s!"Failed to read config file: {Text.quoted path}: {fault.message}"
  | malformed => "Failed to parse configuration"
  | noDatabaseUrl => "Database url must be set"
  | noConnections => "Database max_connections must be at least 1"
  | chain chainId fault => s!"Invalid chain config for {chainId}: {fault.message}"

end SettingsFault

open Toml

namespace ChainSettings

def fields : List String :=
  ["chain_id", "bech32_prefix", "gas_token", "fallback_gas_price", "max_gas_price",
    "gas_limit_multiplier", "max_msgs_per_batch", "block_rate_ms", "blocks_until_tx_timeout",
    "confirm_poll_period_ms", "tx_msg_timeout_secs", "ocr2_cache_poll_period_ms",
    "ocr2_cache_ttl_secs", "close_timeout_secs"]

def ofMembers? (members : Members) : Option ChainSettings := do
  let defaults := new (← members.required "chain_id" Value.text?)
  return {
    chainId := defaults.chainId
    hrp := ← members.optional "bech32_prefix" defaults.hrp Value.text?
    gasToken := ← members.optional "gas_token" defaults.gasToken Value.text?
    fallbackGasPrice :=
      ← members.optional "fallback_gas_price" defaults.fallbackGasPrice Value.decimal?
    maxGasPrice :=
      ← members.optional "max_gas_price" defaults.maxGasPrice fun v => v.decimal?.map some
    gasLimitMultiplier :=
      ← members.optional "gas_limit_multiplier" defaults.gasLimitMultiplier Value.binary64?
    maxMsgsPerBatch := ← members.optional "max_msgs_per_batch" defaults.maxMsgsPerBatch Value.int64?
    blockRateMs := ← members.optional "block_rate_ms" defaults.blockRateMs (Value.natOfBits? 64)
    blocksUntilTxTimeout :=
      ← members.optional "blocks_until_tx_timeout" defaults.blocksUntilTxTimeout Value.int64?
    confirmPollPeriodMs :=
      ← members.optional "confirm_poll_period_ms" defaults.confirmPollPeriodMs (Value.natOfBits? 64)
    txMsgTimeoutSecs :=
      ← members.optional "tx_msg_timeout_secs" defaults.txMsgTimeoutSecs (Value.natOfBits? 64)
    cachePollPeriodMs :=
      ← members.optional "ocr2_cache_poll_period_ms" defaults.cachePollPeriodMs
        (Value.natOfBits? 64)
    cacheTtlSecs := ← members.optional "ocr2_cache_ttl_secs" defaults.cacheTtlSecs (Value.natOfBits? 64)
    closeTimeoutSecs :=
      ← members.optional "close_timeout_secs" defaults.closeTimeoutSecs (Value.natOfBits? 64)
  }

/-- The settings of a chain that a file of their own holds. -/
def ofToml? (text : String) : Option ChainSettings :=
  (Toml.read text).bind ofMembers?

end ChainSettings

namespace DatabaseSettings

def fields : List String :=
  ["url", "max_connections", "min_connections"]

def ofMembers? (members : Members) : Option DatabaseSettings := do
  return {
    url := ← members.required "url" Value.text?
    maxConnections := ← members.optional "max_connections" 5 (Value.natOfBits? 32)
    minConnections := ← members.optional "min_connections" 0 (Value.natOfBits? 32)
  }

end DatabaseSettings

namespace Settings

def ofMembers? (members : Members) : Option Settings := do
  let database ← members.required "database" (Value.members? DatabaseSettings.fields)
  let chain ← members.required "chain" (Value.members? ChainSettings.fields)
  return ⟨← DatabaseSettings.ofMembers? database, ← ChainSettings.ofMembers? chain⟩

def fault? (settings : Settings) : Option SettingsFault :=
  if settings.database.url = "" then some .noDatabaseUrl
  else if settings.database.maxConnections = 0 then some .noConnections
  else settings.chain.fault?.map (.chain settings.chain.chainId)

/-- The settings in the text of a file. -/
def ofText (valueOf? : String → Option String) (text : String) : Except SettingsFault Settings :=
  match (Toml.read (Placeholder.fill valueOf? text)).bind ofMembers? with
  | none => .error .malformed
  | some settings =>
    match settings.fault? with
    | some fault => .error fault
    | none => .ok settings

def load (files : FileSystem) (valueOf? : String → Option String) (path : String) :
    Except SettingsFault Settings :=
  match files.read path with
  | .error fault => .error (.unreadable path fault)
  | .ok text => ofText valueOf? text

/-- Where the file is: a variable says so, or it is at its usual place. -/
def path (valueOf? : String → Option String) : String :=
  (valueOf? "COSMOS_RELAY_CONFIG").getD "config/default.toml"

end Settings

end ReportRelay
