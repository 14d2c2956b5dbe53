/-!
# Causes of failure

Every operation of the relay that can fail does so with one of these causes. `Error.message` is the
wording shown to an operator, and `Error.isRetryable` says whether the same operation may succeed
later without any change to its input.
-/

namespace ReportRelay

/-- What the database can answer instead of a result. -/
inductive DatabaseFault
  | rejectedTransition
  | failedCheck
  | missingTable
  | readOnly
  | cannotOpen
  | noDatabase
  | unknownLayer (name : String)
  | unknownHost (name : String)
  | nulInName
  | badUrl (text : String)
  | unexpectedData (text : String)
  deriving DecidableEq, Repr

namespace DatabaseFault

def message : DatabaseFault → String
  | rejectedTransition =>
    "error returned from database: (code: 1811) invalid msg state transition"
  | failedCheck => "error returned from database: (code: 275) CHECK constraint failed: "
    ++ "(state IN ('broadcasted', 'confirmed')) = (tx_hash IS NOT NULL)"
  | missingTable => "error returned from database: (code: 1) no such table: cosmos_msgs"
  | readOnly => "error returned from database: (code: 8) attempt to write a readonly database"
  | cannotOpen => "error returned from database: (code: 14) unable to open database file"
  | noDatabase => "error returned from database: (code: 26) file is not a database"
  | unknownLayer name => s!"error returned from database: (code: 1) no such vfs: {name}"
  | unknownHost name => s!"error returned from database: (code: 1) invalid uri authority: {name}"
  | nulInName => "error communicating with database: "
    ++ "filename passed to SQLite must not contain nul bytes"
  | badUrl text => s!"error with configuration: {text}"
  | unexpectedData text => s!"encountered unexpected or invalid data: {text}"

end DatabaseFault

inductive Error
  | config (text : String)
  | database (fault : DatabaseFault)
  | chain (operation text : String)
  | unsupportedMessage (typeUrl : String)
  | invalidMessage (text : String)
  | keystore (text : String)
  | gasPrice (text : String)
  | codec (text : String)
  | invalidLimit
  | missingTxHash
  | rowCountMismatch (expected got : Nat)
  | timeout (operation : String)
  | cache (text : String)
  | internal (text : String)
  deriving DecidableEq, Repr

namespace Error

def message : Error → String
  | config text => s!"Configuration error: {text}"
  | database fault => s!"Database error: {fault.message}"
  | chain operation text => s!"Chain error during {operation}: {text}"
  | unsupportedMessage typeUrl => s!"unsupported message type {typeUrl}"
  | invalidMessage text => s!"Invalid message: {text}"
  | keystore text => s!"Keystore error: {text}"
  | gasPrice text => s!"Gas price error: {text}"
  | codec text => s!"Codec error: {text}"
  | invalidLimit => "limit must be greater than 0"
  | missingTxHash => "must provide txHash when updating state to broadcasted"
  | rowCountMismatch expected got => s!"expected {expected} records updated, got {got}"
  | timeout operation => s!"Timeout waiting for {operation}"
  | cache text => s!"Contract cache error: {text}"
  | internal text => s!"Internal error: {text}"

def isRetryable : Error → Bool
  | chain _ _ | timeout _ | cache _ => true
  | _ => false

end Error

end ReportRelay
