import ReportRelay.Hash.Ripemd160
import ReportRelay.Hash.Sha256
import ReportRelay.Reply
import ReportRelay.Text.Bech32
import ReportRelay.Text.Hex

/-!
# Keys by address

A keystore lists its accounts as public keys in hexadecimal text and signs for them. The keyring maps the
address of each public key to the key. It asks for the accounts again when an address is unknown, and a
listing that cannot be used leaves the map as it was.
-/

namespace ReportRelay

inductive KeystoreQuestion
  | accounts
  | sign (account : String) (data : Bytes)
  deriving DecidableEq, Repr

def KeystoreQuestion.Answer : KeystoreQuestion → Type
  | accounts => Reply (List String)
  | sign _ _ => Reply Bytes

def keystore : Interface where
  Question := KeystoreQuestion
  Answer := KeystoreQuestion.Answer

structure Keyring where
  /-- The human-readable part of every address. -/
  hrp : String
  keys : List (String × Bytes)
  deriving DecidableEq, Repr

/-- A handle that signs with the key of one address. -/
structure Signer where
  address : String
  pubKey : Bytes
  deriving DecidableEq, Repr

namespace Keyring

def empty (hrp : String) : Keyring := ⟨hrp, []⟩

def signatureLength : Nat := 64

def keyHash (pubKey : Bytes) : Bytes :=
  Ripemd160.hash (Sha256.hash pubKey)

def addressOf (pubKey : Bytes) (hrp : String) : Except Error String :=
  match Bech32.encode hrp (keyHash pubKey) with
  | .ok address => .ok address
  | .error fault => .error (.keystore s!"bech32 encoding failed: {fault.message}")

def pubKeyOf (account : String) : Except Error Bytes :=
  match Hex.decode account with
  | .ok pubKey => .ok pubKey
  | .error fault => .error (.keystore s!"invalid public key {account}: {fault.message}")

/-- A later key replaces an earlier one of the same address. -/
def insert (keys : List (String × Bytes)) (address : String) (pubKey : Bytes) :
    List (String × Bytes) :=
  keys.filter (fun entry => entry.1 ≠ address) ++ [(address, pubKey)]

/-- The map of all accounts, or the fault of the first that has no address. -/
def keysOf (hrp : String) : List String → List (String × Bytes) →
    Except Error (List (String × Bytes))
  | [], keys => .ok keys
  | account :: rest, keys => do
    let pubKey ← pubKeyOf account
    let address ← addressOf pubKey hrp
    keysOf hrp rest (insert keys address pubKey)

/-- An action on the keyring. Its effect on the map stays, whether it succeeds, fails or crashes. -/
abbrev Action (α : Type) := ExceptT Error (ExceptT Crash (StateT Keyring (Dialogue keystore))) α

namespace Action

variable {α : Type}

def ofReply (question : Dialogue keystore (Reply α)) : Action α :=
  ExceptT.mk (ExceptT.mk (StateT.lift (question.bind Reply.await)))

/-- Runs an action on a keyring. -/
def run (action : Action α) (keyring : Keyring) :
    Dialogue keystore (Except Crash (Except Error α) × Keyring) :=
  StateT.run (ExceptT.run (ExceptT.run action)) keyring

end Action

def refresh : Action Unit := do
  let accounts ← .ofReply (Dialogue.question (S := keystore) .accounts)
  let keyring ← get
  let keys ← keysOf keyring.hrp accounts []
  set { keyring with keys }

/-- The addresses of all accounts in ascending order. -/
def accounts : Action (List String) := do
  refresh
  let keyring ← get
  return (keyring.keys.map Prod.fst).mergeSort

def pubKey (address : String) : Action Bytes := do
  let keyring ← get
  match keyring.keys.lookup address with
  | some pubKey => return pubKey
  | none => do
    refresh
    let keyring ← get
    match keyring.keys.lookup address with
    | some pubKey => return pubKey
    | none => throw (.keystore s!"account not found: {address}")

def sign (address : String) (data : Bytes) : Action Bytes := do
  let pubKey ← pubKey address
  let signature ← .ofReply (Dialogue.question (S := keystore) (.sign (Hex.encode pubKey) data))
  if signature.length = signatureLength then return signature
  else
    throw (.keystore
      s!"invalid signature length: expected {signatureLength} got {signature.length}")

def signer (address : String) : Action Signer := do
  let pubKey ← pubKey address
  return ⟨address, pubKey⟩

end Keyring

namespace Signer

/-- Signs the SHA-256 hash of the bytes. -/
def sign (signer : Signer) (bytes : Bytes) : Keyring.Action Bytes :=
  Keyring.sign signer.address (Sha256.hash bytes)

def shown (signer : Signer) : String :=
  let address := Text.quoted signer.address
  let pubKey := Text.quoted (Hex.encode signer.pubKey)
  "AccountSigner \x7b address: " ++ address ++ ", pub_key: " ++ pubKey ++ " \x7d"

end Signer

end ReportRelay
