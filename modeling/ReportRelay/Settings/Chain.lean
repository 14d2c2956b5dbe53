import ReportRelay.Dispatch.Settings

/-!
# Settings of a chain

Everything but the chain id has a default. Periods and timeouts are whole milliseconds or seconds of 64
bits. From them follow the settings of the dispatcher: a transaction is looked up for as long as it may wait
for a block.
-/

namespace ReportRelay

structure ChainSettings where
  chainId : String
  hrp : String
  gasToken : String
  fallbackGasPrice : Decimal
  maxGasPrice : Option Decimal
  gasLimitMultiplier : Binary64
  maxMsgsPerBatch : Int
  blockRateMs : Nat
  blocksUntilTxTimeout : Int
  confirmPollPeriodMs : Nat
  txMsgTimeoutSecs : Nat
  cachePollPeriodMs : Nat
  cacheTtlSecs : Nat
  closeTimeoutSecs : Nat
  deriving DecidableEq, Repr

/-- What is wrong with the settings of a chain. -/
inductive ChainFault
  | noChainId
  | noGasToken (chainId : String)
  | emptyBatch
  | lowGasLimitMultiplier
  | noBlocksUntilTimeout
  | zeroPollPeriod (chainId : String)
  | negativeFallbackPrice
  | maxPriceNotPositive
  deriving DecidableEq, Repr

namespace ChainFault

def message : ChainFault → String
  | noChainId => "chain_id must be set"
  | noGasToken chainId => s!"Chain {chainId} has no gas token configured"
  | emptyBatch => "max_msgs_per_batch must be at least 1"
  | lowGasLimitMultiplier => "gas_limit_multiplier must be at least 1.0"
  | noBlocksUntilTimeout => "blocks_until_tx_timeout must be at least 1"
  | zeroPollPeriod chainId => s!"Chain {chainId} has a zero poll period"
  | negativeFallbackPrice => "fallback_gas_price must not be negative"
  | maxPriceNotPositive => "max_gas_price must be positive"

end ChainFault

namespace ChainSettings

/-- The settings of a chain of which nothing but the id is known. -/
def new (chainId : String) : ChainSettings where
  chainId
  hrp := "wasm"
  gasToken := "ucosm"
  fallbackGasPrice := ⟨false, 15, 3, by decide, by decide⟩
  maxGasPrice := none
  gasLimitMultiplier := ⟨0x3ff8000000000000⟩
  maxMsgsPerBatch := 100
  blockRateMs := 6000
  blocksUntilTxTimeout := 30
  confirmPollPeriodMs := 1000
  txMsgTimeoutSecs := 600
  cachePollPeriodMs := 4000
  cacheTtlSecs := 60
  closeTimeoutSecs := 10

variable (settings : ChainSettings)

def blockRate : Nat := Duration.ofMillis settings.blockRateMs

def confirmPollPeriod : Nat := Duration.ofMillis settings.confirmPollPeriodMs

def txMsgTimeout : Nat := Duration.ofSeconds settings.txMsgTimeoutSecs

def cachePollPeriod : Nat := Duration.ofMillis settings.cachePollPeriodMs

def cacheTtl : Nat := Duration.ofSeconds settings.cacheTtlSecs

def closeTimeout : Nat := Duration.ofSeconds settings.closeTimeoutSecs

/-- How many milliseconds the blocks take in which a transaction may be included, in 64 bits. -/
def confirmWindowMs : Nat :=
  min (settings.blockRateMs * (max settings.blocksUntilTxTimeout 1).toNat) (2 ^ 64 - 1)

/-- As many lookups as fit into the window. -/
def confirmAttempts : Nat :=
  max (min (settings.confirmWindowMs / max settings.confirmPollPeriodMs 1) (2 ^ 32 - 1)) 1

def confirmRetry : RetryPolicy :=
  ⟨settings.confirmAttempts, settings.confirmPollPeriod, .fixed⟩

def dispatch : Dispatch.Settings where
  gasToken := settings.gasToken
  gasLimitMultiplier := settings.gasLimitMultiplier
  maxGasPrice := settings.maxGasPrice
  maxMsgsPerBatch := settings.maxMsgsPerBatch
  blockRate := settings.blockRate
  blocksUntilTxTimeout := settings.blocksUntilTxTimeout
  msgTimeout := settings.txMsgTimeout
  confirmRetry := settings.confirmRetry
  closeTimeout := settings.closeTimeout

/-- The first thing that is wrong, if anything is. -/
def fault? : Option ChainFault :=
  if settings.chainId = "" then some .noChainId
  else if settings.gasToken = "" then some (.noGasToken settings.chainId)
  else if settings.maxMsgsPerBatch < 1 then some .emptyBatch
  else if settings.gasLimitMultiplier.isBelowOne then some .lowGasLimitMultiplier
  else if settings.blocksUntilTxTimeout < 1 then some .noBlocksUntilTimeout
  else if settings.blockRateMs = 0 ∨ settings.confirmPollPeriodMs = 0 then
    some (.zeroPollPeriod settings.chainId)
  else if settings.fallbackGasPrice.negative then some .negativeFallbackPrice
  else if settings.maxGasPrice.any fun price => price ≤ Decimal.zero then
    some .maxPriceNotPositive
  else none

end ChainSettings

end ReportRelay
