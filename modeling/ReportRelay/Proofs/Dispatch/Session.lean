import ReportRelay.Dispatch
import ReportRelay.Proofs.Dialogue.Course
import ReportRelay.Proofs.Queue.Evolution

/-!
# Sessions of the dispatcher

A session is a list of commands, performed one after the other on one store. A dispatcher remembers nothing
itself, so a command with other settings stands for another dispatcher on the same store. Everything that is
asked during a session goes into its history, together with the store right after it.
-/

namespace ReportRelay.Dispatch

/-- Whoever the dispatcher asks besides the store. They have a state of their own, which also changes as time
passes, so their answers may come in any pattern. -/
structure Collaborators (E : Type) where
  client : Behalf → (call : ClientCall) → E → Reply call.Result × E
  signer : String → E → Reply Signer × E
  prices : E → Reply Prices × E
  now : E → Int × E
  turn : E → Nat × E
  pass : Nat → E → E

/-- Every call of the client succeeds or fails; none takes the dispatcher down. -/
def Collaborators.Calm {E : Type} (others : Collaborators E) : Prop :=
  ∀ behalf call env c, (others.client behalf call env).1.outcome ≠ .error c

structure Moment where
  event : Event interface
  store : Store

structure World (E : Type) where
  env : E
  store : Store
  history : List Moment

inductive Command
  | enqueue (contractId : String) (envelope : Envelope)
  | sendMsgBatch (settings : Settings)
  | confirmAnyUnconfirmed (settings : Settings)
  | pollCycle (settings : Settings)

def Command.dialogue : Command → Run Unit
  | enqueue contractId envelope =>
    (Dispatch.enqueue contractId envelope).outcome.bind fun _ => .done ()
  | sendMsgBatch settings => (Dispatch.sendMsgBatch settings).outcome.bind fun _ => .done ()
  | confirmAnyUnconfirmed settings =>
    (Dispatch.confirmAnyUnconfirmed settings).outcome.bind fun _ => .done ()
  | pollCycle settings => Dispatch.pollCycle settings

namespace World

variable {E : Type} (chainId : String) (others : Collaborators E)

/-- The answer to a question, with what the collaborators and the store have become. -/
def respond : (question : Question) → E → Store → question.Answer × E × Store
  | .client behalf call, env, store =>
    let (reply, env) := others.client behalf call env
    (reply, env, store)
  | .signer sender, env, store =>
    let (reply, env) := others.signer sender env
    (reply, env, store)
  | .prices, env, store =>
    let (reply, env) := others.prices env
    (reply, env, store)
  | .now, env, store =>
    let (now, env) := others.now env
    (now, env, store)
  | .turn, env, store =>
    let (nanos, env) := others.turn env
    (nanos, env, store)
  | .store statement, env, store =>
    let (result, store) := store.execute chainId statement
    (result, env, store)
  | .storeAll ids state txHash, env, store =>
    let (result, store) := store.updateAll chainId ids state txHash
    (result, env, store)
  | .log _, env, store => ((), env, store)

def answer (question : Question) (world : World E) : question.Answer × World E :=
  let (a, env, store) := respond chainId others question world.env world.store
  (a, ⟨env, store, world.history ++ [⟨⟨question, a⟩, store⟩]⟩)

def pass (nanos : Nat) (world : World E) : World E :=
  { world with env := others.pass nanos world.env }

/-- Performs a command to its end. It may fail or crash; the next command goes on from there. -/
def perform (world : World E) (command : Command) : World E :=
  (command.dialogue.run (pass others) (answer chainId others) world).2

def session (env : E) (store : Store) (commands : List Command) : World E :=
  commands.foldl (perform chainId others) ⟨env, store, []⟩

end World

def emptyStore : Store := Store.new.migrate.2

theorem lawful_emptyStore : emptyStore.Lawful :=
  Store.lawful_new

/-! ## Collaborators that oblige -/

/-- Accounts are not found as often as the state says. Otherwise every request succeeds, and every transaction is
accepted and found. -/
def obliging : Collaborators Nat where
  client _ call failures :=
    match call, failures with
    | .account _, failures + 1 => (.error (.internal "no account"), failures)
    | .account _, 0 => (.ok ⟨0, 0⟩, 0)
    | .simulateEach messages _, failures => (.ok ⟨messages, []⟩, failures)
    | .simulate _ _, failures => (.ok (0 : Nat), failures)
    | .latestBlock, failures => (.ok (0 : Nat), failures)
    | .createAndSign _ _, failures => (.ok [], failures)
    | .broadcast _, failures => (.ok ⟨"hash", 0, ""⟩, failures)
    | .lookUp txHash, failures => (.ok ⟨txHash, 0, 0, "", []⟩, failures)
  signer sender failures := (.ok ⟨sender, []⟩, failures)
  prices failures := (.ok (.single ⟨"token", .zero⟩), failures)
  now failures := (0, failures)
  turn failures := (0, failures)
  pass _ failures := failures

theorem calm_obliging : obliging.Calm := by
  intro behalf call failures c
  cases call <;> cases failures <;> exact nofun

def limitedSettings (limit : Int) : Settings where
  gasToken := "token"
  gasLimitMultiplier := ⟨0⟩
  maxGasPrice := none
  maxMsgsPerBatch := limit
  blockRate := 0
  blocksUntilTxTimeout := 0
  msgTimeout := 0
  confirmRetry := ⟨1, 0, .fixed⟩
  closeTimeout := 0

/-- A payment by the shortest address that there is. -/
def payment : Envelope :=
  ⟨Message.sendUrl, [10, 8, 97, 49, 50, 117, 101, 108, 53, 108]⟩

/-- So many payments, enqueued on an empty store. -/
def payments (count : Nat) : Store :=
  (World.session "chain" obliging 0 emptyStore (List.replicate count (.enqueue "contract" payment))).store

end ReportRelay.Dispatch
