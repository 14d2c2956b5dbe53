import ReportRelay.Relay

/-!
# The transaction manager

The relay of a chain with its settings and the loops that it runs in the background. Whatever is done in the
foreground is done beside the loops, with the same keyring, the same estimator and the same store.
-/

namespace ReportRelay.Relay

structure Manager where
  settings : Dispatch.Settings
  memory : Memory
  lifecycle : Dispatch.Lifecycle

namespace Manager

variable {α : Type}

/-- A manager that knows no keys yet and runs no loop. -/
def new (settings : Dispatch.Settings) (hrp : String) (estimator : Estimator) : Manager :=
  ⟨settings, ⟨Keyring.empty hrp, estimator⟩, .fresh⟩

/-- Does something in the foreground. -/
def perform (p : Dispatch.Run α) (manager : Manager) : Run (Except Crash α × Manager) := do
  let both := manager.lifecycle.background.beside (Dialogue.guarded p)
  match ← Relay.perform both manager.memory with
  | (.ok (outcome, background), memory) =>
    return (outcome, { manager with memory, lifecycle := { manager.lifecycle with background } })
  | (.error c, memory) => return (.error c, { manager with memory })

def start (manager : Manager) : Except Error Manager := do
  let lifecycle ← manager.lifecycle.start manager.settings
  return { manager with lifecycle }

def close (manager : Manager) : Run (Except Crash (Except Error Unit) × Manager) := do
  match ← Relay.perform (manager.lifecycle.close manager.settings) manager.memory with
  | (.ok (result, lifecycle), memory) => return (.ok result, { manager with memory, lifecycle })
  | (.error c, memory) => return (.error c, { manager with memory })

end Manager

end ReportRelay.Relay
