import ReportRelay.Dialogue
import ReportRelay.Queue.State
import ReportRelay.Bytes

/-!
# The message store

One table for all chains, in the order of the row ids. Every operation works for one chain. A statement
that would move a row along no edge of the life cycle, or leave it with a transaction hash in the wrong
state, is rejected as a whole; a transaction is rolled back as a whole, together with the ids it gave out.
A database binds only so many values in one statement, and refuses a longer list of ids as a whole; here a
list may be as long as it likes.
-/

namespace ReportRelay

abbrev MsgId := Int

/-- A message in the table. When the row was last changed is left out: it is stored and handed out, but nothing
depends on it. -/
structure Row where
  id : MsgId
  chainId : String
  contractId : String
  state : MsgState
  typeUrl : String
  raw : Bytes
  txHash : Option String
  /-- Nanoseconds of the clock at which the message was enqueued. -/
  createdAt : Int
  deriving DecidableEq, Repr

namespace Row

/-- A row carries a transaction hash exactly in the states that have one. -/
def Checked (row : Row) : Prop :=
  row.state.hasTxHash = row.txHash.isSome

instance (row : Row) : Decidable row.Checked :=
  inferInstanceAs (Decidable (_ = _))

/-- The row in another state. A broadcast row takes the hash, a confirmed one keeps the one it was
broadcast with, and every other row has none. -/
def moveTo (row : Row) (state : MsgState) (txHash : Option String) : Row :=
  match state with
  | .broadcasted => { row with state, txHash }
  | .confirmed => { row with state }
  | _ => { row with state, txHash := none }

end Row

structure MsgStats where
  unstarted : Nat
  started : Nat
  broadcasted : Nat
  confirmed : Nat
  errored : Nat
  deriving DecidableEq, Repr

/-- Whether the table exists. A store that can only be read never gets it. -/
inductive Table
  | missing
  | refused
  | present
  deriving DecidableEq, Repr

/-- What the guard of the table lets pass: each state that a row may leave, with those that it may come to. -/
def Table.guard : List (MsgState × List MsgState) :=
  [(.unstarted, [.started, .errored]),
    (.started, [.broadcasted, .errored]),
    (.broadcasted, [.confirmed, .errored])]

def Table.admits (source target : MsgState) : Bool :=
  guard.any fun (before, after) => before = source ∧ target ∈ after

structure Store where
  table : Table
  rows : List Row
  /-- The id that was given out last. -/
  lastId : MsgId
  deriving DecidableEq, Repr

namespace Store

def new : Store := ⟨.missing, [], 0⟩

/-- A new store that can only be read. -/
def readOnly : Store := ⟨.refused, [], 0⟩

def migrated (store : Store) : Bool :=
  store.table = .present

/-- Makes the table unless it exists. -/
def migrate (store : Store) : Except Error Unit × Store :=
  match store.table with
  | .refused => (.error (.database .readOnly), store)
  | _ => (.ok (), { store with table := .present })

def missingTable : Error := .database .missingTable

def insert (chainId contractId typeUrl : String) (raw : Bytes) (now : Int) (store : Store) :
    Except Error MsgId × Store :=
  if store.migrated then
    let id := store.lastId + 1
    let row : Row := ⟨id, chainId, contractId, .unstarted, typeUrl, raw, none, now⟩
    (.ok id, { store with rows := store.rows ++ [row], lastId := id })
  else (.error missingTable, store)

/-- The oldest `limit` messages in a state. -/
def load (chainId : String) (state : MsgState) (limit : Int) (store : Store) :
    Except Error (List Row) :=
  if limit < 1 then .error .invalidLimit
  else if store.migrated then
    .ok ((store.rows.filter fun row => row.chainId = chainId ∧ row.state = state).take limit.toNat)
  else .error missingTable

/-- The rows of the chain with these ids, of which there may be any number. -/
def find (chainId : String) (ids : List MsgId) (store : Store) : Except Error (List Row) :=
  if ids.isEmpty then .ok []
  else if store.migrated then
    .ok (store.rows.filter fun row => row.chainId = chainId ∧ row.id ∈ ids)
  else .error missingTable

/-- Moves the rows that `selected` picks, all of them or none; the number of rows moved. -/
def moveWhere (selected : Row → Bool) (state : MsgState) (txHash : Option String) (store : Store) :
    Except Error Nat × Store :=
  if store.migrated then
    let hit := store.rows.filter selected
    if hit.any fun row => !Table.admits row.state state then
      (.error (.database .rejectedTransition), store)
    else if hit.any fun row => !decide (row.moveTo state txHash).Checked then
      (.error (.database .failedCheck), store)
    else
      let rows := store.rows.map fun row => if selected row then row.moveTo state txHash else row
      (.ok hit.length, { store with rows })
  else (.error missingTable, store)

/-- Moves every id to a state, of which there may be any number. When not every id was a row of the chain, the rows
that were have moved. -/
def update (chainId : String) (ids : List MsgId) (state : MsgState) (txHash : Option String)
    (store : Store) : Except Error Unit × Store :=
  if state = .broadcasted ∧ txHash = none then (.error .missingTxHash, store)
  else if ids.isEmpty then (.ok (), store)
  else
    match store.moveWhere (fun row => row.chainId = chainId ∧ row.id ∈ ids) state txHash with
    | (.error e, store) => (.error e, store)
    | (.ok moved, store) =>
      if moved = ids.length then (.ok (), store)
      else (.error (.rowCountMismatch ids.length moved), store)

/-- Moves all of a contract's messages from one state to another. -/
def updateContract (chainId contractId : String) (source target : MsgState) (store : Store) :
    Except Error Nat × Store :=
  if target = .broadcasted then (.error .missingTxHash, store)
  else if source.canMoveTo target then
    store.moveWhere
      (fun row => row.chainId = chainId ∧ row.contractId = contractId ∧ row.state = source) target none
  else
    (.error (.internal
      s!"invalid msg state transition from {source.name} to {target.name}"), store)

def stats (chainId : String) (store : Store) : Except Error MsgStats :=
  if store.migrated then
    let count (state : MsgState) :=
      store.rows.countP fun row => row.chainId = chainId ∧ row.state = state
    .ok ⟨count .unstarted, count .started, count .broadcasted, count .confirmed, count .errored⟩
  else .error missingTable

/-! ## Statements and transactions -/

/-- What may be asked of a store, inside a transaction or outside one. -/
inductive Statement
  | insert (contractId typeUrl : String) (raw : Bytes) (now : Int)
  | load (state : MsgState) (limit : Int)
  | find (ids : List MsgId)
  | update (ids : List MsgId) (state : MsgState) (txHash : Option String)

def Statement.Result : Statement → Type
  | insert .. => MsgId
  | load .. | find .. => List Row
  | update .. => Unit

def statements : Interface where
  Question := Statement
  Answer s := Except Error s.Result

def execute (chainId : String) : (s : Statement) → Store → Except Error s.Result × Store
  | .insert contractId typeUrl raw now, store => store.insert chainId contractId typeUrl raw now
  | .load state limit, store => (store.load chainId state limit, store)
  | .find ids, store => (store.find chainId ids, store)
  | .update ids state txHash, store => store.update chainId ids state txHash

/-- Runs a dialogue that asks nobody but the store. -/
def run {α : Type} (chainId : String) (body : Dialogue statements α) (store : Store) :
    Except Crash α × Store :=
  body.run (fun _ store => store) (execute chainId) store

/-- Keeps the changes of a body that succeeds and undoes those of one that fails or crashes. -/
def transaction {α : Type} (chainId : String) (body : Dialogue statements (Except Error α))
    (store : Store) : Except Crash (Except Error α) × Store :=
  match store.run chainId body with
  | (.ok (.ok a), changed) => (.ok (.ok a), changed)
  | (outcome, _) => (outcome, store)

/-- Moves every id to a state, all of them or none. -/
def updateAll (chainId : String) (ids : List MsgId) (state : MsgState) (txHash : Option String)
    (store : Store) : Except Error Unit × Store :=
  match store.update chainId ids state txHash with
  | (.ok (), changed) => (.ok (), changed)
  | (.error e, _) => (.error e, store)

end Store

end ReportRelay
