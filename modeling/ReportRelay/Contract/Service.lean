import ReportRelay.Contract.Cache

/-!
# The cache of one contract

The cache with its settings and the loop that keeps it current. Reading it takes no time; a refresh is made
beside the loop.
-/

namespace ReportRelay.Contract

structure CacheService where
  address : String
  ttl : Nat
  pollPeriod : Nat
  closeTimeout : Nat
  cache : Cache
  background : Polling.Background Cache.interface

namespace CacheService

variable {α : Type}

/-- A cache that holds nothing yet and has no loop. -/
def new (address : String) (ttl pollPeriod closeTimeout : Nat) : CacheService :=
  ⟨address, ttl, pollPeriod, closeTimeout, .empty, .none⟩

/-- Does something in the foreground. -/
def perform (p : Cache.Run α) (service : CacheService) :
    Dialogue Cache.outside (Except Crash α × CacheService) := do
  let both := service.background.beside (Dialogue.guarded p)
  match ← Cache.perform both service.cache with
  | (.ok (outcome, background), cache) => return (outcome, { service with cache, background })
  | (.error c, cache) => return (.error c, { service with cache })

def refresh (service : CacheService) :
    Dialogue Cache.outside (Except Crash (Except Error Unit) × CacheService) :=
  service.perform (Cache.refresh service.address).outcome

def start (service : CacheService) : CacheService :=
  { service with background := Cache.start service.address service.pollPeriod service.background }

def close (service : CacheService) : Dialogue Cache.outside (Except Crash Unit × CacheService) := do
  match ← Cache.perform (Cache.close service.closeTimeout service.background) service.cache with
  | (.ok background, cache) => return (.ok (), { service with cache, background })
  | (.error c, cache) => return (.error c, { service with cache })

end CacheService

end ReportRelay.Contract
