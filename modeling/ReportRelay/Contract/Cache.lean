import ReportRelay.Contract.State
import ReportRelay.Dialogue.Together
import ReportRelay.Duration
import ReportRelay.Polling
import ReportRelay.Polling.Background

/-!
# The contract cache

Serves the configuration and the latest transmission of a contract from memory. A refresh updates both sides at
the same time, and each side on its own: one that fails leaves what it had, with its age. The configuration is
not fetched again while the contract reports the same block and digest. Values older than the time to live are
refused.
-/

namespace ReportRelay.Contract

structure CachedConfig where
  /-- When the value was last known to be current. -/
  updatedAt : Nat
  block : Nat
  config : ContractConfig
  deriving DecidableEq, Repr

structure CachedTransmission where
  updatedAt : Nat
  transmission : Transmission
  deriving DecidableEq, Repr

structure Cache where
  config : Option CachedConfig
  transmission : Option CachedTransmission
  deriving DecidableEq, Repr

namespace Cache

def empty : Cache := ⟨none, none⟩

/-! ## Changes, each in one step -/

/-- Makes the cached configuration current if it is the one that the contract reports, and tells whether
it is. -/
def renew (details : ConfigDetails) (now : Nat) (cache : Cache) : Bool × Cache :=
  match cache.config with
  | none => (false, cache)
  | some cached =>
    if cached.block = details.block ∧ cached.config.digest = details.digest then
      (true, { cache with config := some { cached with updatedAt := now } })
    else (false, cache)

def putConfig (block : Nat) (config : ContractConfig) (now : Nat) (cache : Cache) : Cache :=
  { cache with config := some ⟨now, block, config⟩ }

def putTransmission (transmission : Transmission) (now : Nat) (cache : Cache) : Cache :=
  { cache with transmission := some ⟨now, transmission⟩ }

/-! ## What is served -/

def uninitialized : Error := .cache "contract cache not yet initialized"

def checkAge (ttl updatedAt now : Nat) : Except Error Unit :=
  let age := now - updatedAt
  if ttl < age then
    .error (.cache s!"contract cache expired: value cached {Duration.shown age} ago")
  else .ok ()

def currentConfig (ttl now : Nat) (cache : Cache) : Except Error CachedConfig :=
  match cache.config with
  | none => .error uninitialized
  | some cached => (checkAge ttl cached.updatedAt now).map fun _ => cached

def servedDetails (ttl now : Nat) (cache : Cache) : Except Error ConfigDetails :=
  (cache.currentConfig ttl now).map fun cached => ⟨cached.block, cached.config.digest⟩

def servedConfig (ttl now block : Nat) (cache : Cache) : Except Error ContractConfig := do
  let cached ← cache.currentConfig ttl now
  if cached.block = block then return cached.config
  else throw (.cache
    s!"failed to get config from {block}: latest config in cache is from {cached.block}")

def servedTransmission (ttl now : Nat) (cache : Cache) : Except Error Transmission :=
  match cache.transmission with
  | none => .error uninitialized
  | some cached => (checkAge ttl cached.updatedAt now).map fun _ => cached.transmission

/-- Digest, epoch and round of the latest transmission. -/
def servedRound (ttl now : Nat) (cache : Cache) :
    Except Error (ConfigDigest × UInt32 × UInt8) :=
  (cache.servedTransmission ttl now).map fun t => (t.digest, t.epoch, t.round)

/-! ## Refreshing -/

/-- The chain, the clock, and the cache itself are asked for; a change of the cache takes place at the time
of the clock. -/
inductive Question
  | chain (question : Contract.Question)
  | now
  | renew (details : ConfigDetails)
  | putConfig (block : Nat) (config : ContractConfig)
  | putTransmission (transmission : Transmission)

def Question.Answer : Question → Type
  | chain question => question.Answer
  | now => Nat
  | renew _ => Bool
  | putConfig .. => Unit
  | putTransmission _ => Unit

def interface : Interface where
  Question := Question
  Answer := Question.Answer

abbrev Run (α : Type) := Dialogue interface α

abbrev Action (α : Type) := Attempt interface α

def ask (question : Question) : Run question.Answer :=
  Dialogue.question (S := interface) question

/-- Does what the reader of the contract does. -/
def reading {α : Type} (action : Contract.Action α) : Action α :=
  ExceptT.mk (action.outcome.through fun question => ask (.chain question))

def updateConfig (address : String) : Action Unit := do
  let details ← reading (configDetails address)
  let isCurrent : Bool ← Attempt.ofDialogue (ask (.renew details))
  if isCurrent then return
  else do
    let config ← reading (Contract.config address details.block)
    .ofDialogue (ask (.putConfig details.block config))

def updateTransmission (address : String) : Action Unit := do
  let transmission ← reading (Contract.transmission address)
  .ofDialogue (ask (.putTransmission transmission))

/-- The sides of a refresh that failed, the configuration first. -/
def failures (config transmission : Except Error Unit) : List String :=
  let failure (side : String) : Except Error Unit → List String
    | .ok () => []
    | .error e => [s!"{side}: {e.message}"]
  failure "config" config ++ failure "transmission" transmission

/-- Updates both sides at the same time. -/
def refresh (address : String) : Action Unit :=
  ExceptT.mk do
    let (config, transmission) ←
      Dialogue.inTurns (updateConfig address).outcome (updateTransmission address).outcome
    match failures config transmission with
    | [] => return .ok ()
    | texts => return .error (.cache ("; ".intercalate texts))

/-! ## In the background -/

/-- A tick of the poll loop. -/
def pollCycle (address : String) : Run Unit := do
  match ← (refresh address).outcome with
  | .ok () => return
  | .error e => ask (.chain (.log (.error
      s!"Failed to refresh contract cache for {address}: {e.message}")))

def start (address : String) (pollPeriod : Nat) (background : Polling.Background interface) :
    Polling.Background interface :=
  background.start (Polling.loop (ask .now) pollPeriod (pollCycle address))

/-- Stops the loop, waiting for the refresh in progress no longer than the timeout. A refresh that takes
longer comes to its end by itself. -/
def close (closeTimeout : Nat) (background : Polling.Background interface) :
    Run (Polling.Background interface) := do
  let (_, background) ← background.close closeTimeout
  return background

/-! ## The cache itself -/

/-- What is left to ask: the chain and the clock. -/
inductive OutsideQuestion
  | chain (question : Contract.Question)
  | now

def OutsideQuestion.Answer : OutsideQuestion → Type
  | chain question => question.Answer
  | now => Nat

def outside : Interface where
  Question := OutsideQuestion
  Answer := OutsideQuestion.Answer

def askOutside (question : OutsideQuestion) : Dialogue outside question.Answer :=
  Dialogue.question (S := outside) question

/-- Answers what is asked of the cache. -/
def answer : (question : Question) → Cache → Dialogue outside (question.Answer × Cache)
  | .chain question, cache => do return (← askOutside (.chain question), cache)
  | .now, cache => do return (← askOutside .now, cache)
  | .renew details, cache => do return cache.renew details (← askOutside .now)
  | .putConfig block config, cache => do
    return ((), cache.putConfig block config (← askOutside .now))
  | .putTransmission transmission, cache => do
    return ((), cache.putTransmission transmission (← askOutside .now))

/-- Runs something on a cache. -/
def perform {α : Type} (p : Run α) (cache : Cache) :
    Dialogue outside (Except Crash α × Cache) :=
  p.answering answer cache

end Cache

end ReportRelay.Contract
