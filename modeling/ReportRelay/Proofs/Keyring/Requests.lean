import ReportRelay.Proofs.Dialogue.Transcript
import ReportRelay.Proofs.Keyring.Mapping

/-!
# A keyring at work

Requests to one keyring, one after another, whatever its keystore replies. Every key that is used hashes to the address
that was asked for, and the map changes only where a whole listing could be used.
-/

namespace ReportRelay.Keyring

inductive Request
  | accounts
  | pubKey (address : String)
  | sign (address : String) (data : Bytes)
  | signer (address : String)

def Request.Result : Request → Type
  | accounts => List String
  | pubKey _ => Bytes
  | sign _ _ => Bytes
  | signer _ => Signer

def Request.action : (request : Request) → Action request.Result
  | accounts => Keyring.accounts
  | pubKey address => Keyring.pubKey address
  | sign address data => Keyring.sign address data
  | signer address => Keyring.signer address

def Request.address? : Request → Option String
  | accounts => none
  | pubKey address => some address
  | sign address _ => some address
  | signer address => some address

/-- One request, with what was asked of the keystore for it and what came of it. -/
structure Call where
  request : Request
  before : Keyring
  events : List (Event keystore)
  outcome : Except Crash (Except Error request.Result)
  after : Keyring

inductive Run : Keyring → List Call → Keyring → Prop
  | done {keyring : Keyring} : Run keyring [] keyring
  | next {call : Call} {calls : List Call} {later : Keyring}
    (first : call.request.action.Takes call.before call.events call.outcome call.after)
    (rest : Run call.after calls later) : Run call.before (call :: calls) later

def listings (t : List (Event keystore)) : List (Reply (List String)) :=
  t.filterMap fun
    | ⟨.accounts, reply⟩ => some reply
    | ⟨.sign _ _, _⟩ => none

/-- A signature that the keystore was asked for. -/
structure Signing where
  account : String
  data : Bytes
  reply : Reply Bytes

def signings (t : List (Event keystore)) : List Signing :=
  t.filterMap fun
    | ⟨.accounts, _⟩ => none
    | ⟨.sign account data, reply⟩ => some ⟨account, data, reply⟩

/-- The key stands under the address, and hashes to it. -/
def Holds (keyring : Keyring) (address : String) (key : Bytes) : Prop :=
  keyring.keys.lookup address = some key ∧ addressOf key keyring.hrp = .ok address

/-- A request to sign asks once for the signature of the key that is found, any other request for none. -/
def Request.Signs (after : Keyring) (asked : List Signing) : Request → Prop
  | sign address data =>
    (∀ key, after.Holds address key → ∃ reply, asked = [⟨Hex.encode key, data, reply⟩]) ∧
      ((∀ key, ¬after.Holds address key) → asked = [])
  | _ => asked = []

/-- What a request gives where it succeeds. -/
def Request.Gives (after : Keyring) (t : List (Event keystore)) : (request : Request) → request.Result → Prop
  | accounts, (addresses : List String) =>
    addresses.Pairwise (· < ·) ∧ ∃ reply accounts, listings t = [reply] ∧ Usable after.hrp reply accounts ∧
      ∀ address, address ∈ addresses ↔ ∃ account ∈ accounts, ∃ key, Enters after.hrp account (address, key)
  | pubKey address, key => after.Holds address key
  | sign _ _, (signature : Bytes) =>
    signature.length = 64 ∧ ∃ signing, signings t = [signing] ∧ signing.reply.outcome = .ok (.ok signature)
  | signer address, (handle : Signer) => handle.address = address ∧ after.Holds address handle.pubKey

/-- The course of a call as it should be: a listing exactly where no key is known, a map of the whole listing or the one
before, a signature only of the key under the address, and a result exactly where there is one. -/
structure Call.Served (call : Call) : Prop where
  refreshes : Refreshes call.before (listings call.events) call.after
  hit : ∀ address ∈ call.request.address?, ∀ key, call.before.Holds address key → listings call.events = []
  miss : (∀ address ∈ call.request.address?, ∀ key, ¬call.before.Holds address key) →
    (listings call.events).length = 1
  signs : call.request.Signs call.after (signings call.events)
  ok_iff : ∀ result, call.outcome = .ok (.ok result) ↔ call.request.Gives call.after call.events result

variable {hrp address : String} {before after : Keyring} {t : List (Event keystore)}

theorem Sound.holds_iff {keyring : Keyring} (h : Sound hrp keyring) {key : Bytes} :
    keyring.Holds address key ↔ keyring.keys.lookup address = some key := by
  constructor
  · exact And.left
  · intro hkey
    refine ⟨hkey, ?_⟩
    rw [h.hrp_eq]
    exact h.addressOf_of_lookup hkey

theorem Sound.forall_not_holds_iff {keyring : Keyring} (h : Sound hrp keyring) :
    (∀ key, ¬keyring.Holds address key) ↔ keyring.keys.lookup address = none := by
  simp only [h.holds_iff, Option.eq_none_iff_forall_ne_some, ne_eq]

/-! ## Looking up a key -/

/-- A key that is known is found without a question, another one in what one listing makes of the keyring. -/
inductive LooksUp (address : String) (before : Keyring) : List (Event keystore) → Keyring → Prop
  | known {key : Bytes} (found : before.keys.lookup address = some key) : LooksUp address before [] before
  | asked {reply : Reply (List String)} {after : Keyring} (unknown : before.keys.lookup address = none)
    (refreshes : Refreshes before [reply] after) : LooksUp address before [⟨.accounts, reply⟩] after

theorem takes_pubKey {outcome : Except Crash (Except Error Bytes)} (h : (pubKey address).Takes before t outcome after) :
    LooksUp address before t after ∧ ∀ key, outcome = .ok (.ok key) ↔ after.keys.lookup address = some key := by
  rw [pubKey, Action.takes_get_bind] at h
  cases hkey : before.keys.lookup address with
  | some key =>
    rw [hkey] at h
    obtain ⟨rfl, rfl, rfl⟩ := Action.takes_pure.1 h
    refine ⟨.known hkey, fun other => ?_⟩
    simp [hkey]
  | none =>
    rw [hkey] at h
    rcases Action.takes_bind.1 h with ⟨failure, hrefresh, rfl⟩ | ⟨_, u, v, middle, rfl, hrefresh, h⟩
    · obtain ⟨reply, rfl, hunusable, rfl⟩ := takes_refresh_failure hrefresh
      refine ⟨.asked hkey (.kept hunusable), fun key => ?_⟩
      simp [hkey, Failure.result_ne]
    · obtain ⟨reply, accounts, keys, rfl, husable, hmaps, rfl⟩ := takes_refresh_ok hrefresh
      rw [Action.takes_get_bind] at h
      have hcourse := LooksUp.asked hkey (.replaced husable hmaps)
      cases hfound : keys.lookup address with
      | some key =>
        rw [hfound] at h
        obtain ⟨rfl, rfl, rfl⟩ := Action.takes_pure.1 h
        refine ⟨hcourse, fun other => ?_⟩
        simp [hfound]
      | none =>
        rw [hfound] at h
        obtain ⟨rfl, rfl, rfl⟩ := Action.takes_throw.1 h
        refine ⟨hcourse, fun other => ?_⟩
        simp [hfound]

theorem takes_pubKey_failure {failure : Failure} (h : (pubKey address).Takes before t failure.result after) :
    LooksUp address before t after ∧ after.keys.lookup address = none := by
  obtain ⟨hlooks, hok⟩ := takes_pubKey h
  exact ⟨hlooks, Option.eq_none_iff_forall_ne_some.2 fun key hkey => Failure.result_ne ((hok key).2 hkey)⟩

theorem LooksUp.refreshes (h : LooksUp address before t after) : Refreshes before (listings t) after := by
  cases h with
  | known => exact .unasked
  | asked _ refreshes => exact refreshes

theorem LooksUp.signings_eq_nil (h : LooksUp address before t after) : signings t = [] := by
  cases h <;> rfl

theorem LooksUp.hit (h : LooksUp address before t after) {key : Bytes} (hkey : before.keys.lookup address = some key) :
    listings t = [] := by
  cases h with
  | known => rfl
  | asked unknown => simp [unknown] at hkey

theorem LooksUp.miss (h : LooksUp address before t after) (hunknown : before.keys.lookup address = none) :
    (listings t).length = 1 := by
  cases h with
  | known found => simp [found] at hunknown
  | asked => rfl

/-- What looks up the key of one address and asks for no other listing serves a call for that address. -/
theorem LooksUp.served {call : Call} {u : List (Event keystore)} (h : LooksUp address call.before u call.after)
    (hsound : Sound hrp call.before) (haddress : call.request.address? = some address)
    (hlistings : listings call.events = listings u) (hsigns : call.request.Signs call.after (signings call.events))
    (hok : ∀ result, call.outcome = .ok (.ok result) ↔ call.request.Gives call.after call.events result) :
    call.Served where
  refreshes := hlistings ▸ h.refreshes
  hit := by
    rw [haddress, hlistings]
    rintro _ ⟨⟩ key hkey
    exact h.hit hkey.1
  miss hmiss := by
    rw [hlistings]
    exact h.miss (hsound.forall_not_holds_iff.1 (hmiss address haddress))
  signs := hsigns
  ok_iff := hok

/-! ## One request -/

variable {data : Bytes}

theorem served_accounts {outcome : Except Crash (Except Error (List String))}
    (h : accounts.Takes before t outcome after) : Call.Served ⟨.accounts, before, t, outcome, after⟩ := by
  rcases Action.takes_bind.1 h with ⟨failure, hrefresh, rfl⟩ | ⟨_, u, v, middle, rfl, hrefresh, h⟩
  · obtain ⟨reply, rfl, hunusable, rfl⟩ := takes_refresh_failure hrefresh
    refine ⟨.kept hunusable, nofun, fun _ => rfl, rfl, fun addresses => ?_⟩
    refine iff_of_false Failure.result_ne ?_
    rintro ⟨_, _, accounts, ⟨⟩, husable, _⟩
    exact hunusable accounts husable
  · obtain ⟨reply, accounts, keys, rfl, husable, hmaps, rfl⟩ := takes_refresh_ok hrefresh
    rw [Action.takes_get_bind] at h
    obtain ⟨rfl, rfl, rfl⟩ := Action.takes_pure.1 h
    refine ⟨.replaced husable hmaps, nofun, fun _ => rfl, rfl, fun addresses => ?_⟩
    have hlisted : ∀ address, address ∈ (keys.map Prod.fst).mergeSort ↔
        ∃ account ∈ accounts, ∃ key, Enters before.hrp account (address, key) := by
      intro address
      rw [List.mem_mergeSort]
      exact hmaps.mem_addresses_iff
    constructor
    · rintro ⟨⟩
      exact ⟨hmaps.sortedLT.pairwise, reply, accounts, rfl, husable, hlisted⟩
    · rintro ⟨hsorted, _, others, ⟨⟩, hothers, hmem⟩
      cases husable.1.symm.trans hothers.1
      have hsame : (keys.map Prod.fst).mergeSort = addresses := by
        apply hmaps.sortedLT.eq_of_mem_iff hsorted.sortedLT
        exact fun address => (hlisted address).trans (hmem address).symm
      exact congrArg _ (congrArg _ hsame)

theorem served_pubKey {outcome : Except Crash (Except Error Bytes)} (h : (pubKey address).Takes before t outcome after)
    (hsound : Sound hrp before) : Call.Served ⟨.pubKey address, before, t, outcome, after⟩ := by
  obtain ⟨hlooks, hok⟩ := takes_pubKey h
  have hafter := hlooks.refreshes.sound hsound
  exact hlooks.served hsound rfl rfl hlooks.signings_eq_nil fun key => (hok key).trans hafter.holds_iff.symm

theorem served_signer {outcome : Except Crash (Except Error Signer)} (h : (signer address).Takes before t outcome after)
    (hsound : Sound hrp before) : Call.Served ⟨.signer address, before, t, outcome, after⟩ := by
  rcases Action.takes_bind.1 h with ⟨failure, hkey, rfl⟩ | ⟨key, u, v, middle, rfl, hkey, hpure⟩
  · obtain ⟨hlooks, hnone⟩ := takes_pubKey_failure hkey
    refine hlooks.served hsound rfl rfl hlooks.signings_eq_nil fun handle => ?_
    refine iff_of_false Failure.result_ne ?_
    rintro ⟨_, hholds, _⟩
    simp [hnone] at hholds
  · obtain ⟨rfl, rfl, rfl⟩ := Action.takes_pure.1 hpure
    obtain ⟨hlooks, hok⟩ := takes_pubKey hkey
    have hholds := (hlooks.refreshes.sound hsound).holds_iff.2 ((hok key).1 rfl)
    rw [List.append_nil]
    refine hlooks.served hsound rfl rfl hlooks.signings_eq_nil fun handle => ?_
    constructor
    · rintro ⟨⟩
      exact ⟨rfl, hholds⟩
    · obtain ⟨other, otherKey⟩ := handle
      rintro ⟨rfl, hother, _⟩
      cases hholds.1.symm.trans hother
      rfl

theorem takes_signature {account : String} {outcome : Except Crash (Except Error Bytes)} :
    (Action.ofReply (Dialogue.question (S := keystore) (.sign account data))).Takes before t outcome after ↔
      (∃ reply : Reply Bytes, t = [⟨.sign account data, reply⟩] ∧ outcome = reply.outcome) ∧ after = before :=
  Action.takes_ofReply_ask

theorem listings_append_sign {u : List (Event keystore)} {account : String} {reply : Reply Bytes} :
    listings (u ++ [⟨.sign account data, reply⟩]) = listings u := by
  rw [listings, List.filterMap_append]
  exact List.append_nil _

theorem LooksUp.signings_append {u : List (Event keystore)} (h : LooksUp address before u after) {account : String}
    {reply : Reply Bytes} : signings (u ++ [⟨.sign account data, reply⟩]) = [⟨account, data, reply⟩] := by
  have hnil := h.signings_eq_nil
  rw [signings] at hnil ⊢
  rw [List.filterMap_append, hnil]
  rfl

theorem gives_sign_iff {asked : Signing} (h : signings t = [asked]) {signature : Bytes} :
    Request.Gives after t (.sign address data) signature ↔
      signature.length = 64 ∧ asked.reply.outcome = .ok (.ok signature) := by
  apply and_congr_right'
  simp [h]

/-- Where the key is found, the one question for a signature is for that key, and its reply decides. -/
theorem LooksUp.served_sign {u : List (Event keystore)} {key : Bytes} {reply : Reply Bytes}
    {outcome : Except Crash (Except Error Bytes)} (h : LooksUp address before u after) (hsound : Sound hrp before)
    (hkey : after.keys.lookup address = some key)
    (hok : ∀ signature : Bytes, outcome = .ok (.ok signature) ↔
      signature.length = 64 ∧ reply.outcome = .ok (.ok signature)) :
    Call.Served ⟨.sign address data, before, u ++ [⟨.sign (Hex.encode key) data, reply⟩], outcome, after⟩ := by
  have hholds := (h.refreshes.sound hsound).holds_iff.2 hkey
  refine h.served hsound rfl listings_append_sign ⟨fun other hother => ?_, fun hnone => ?_⟩ fun signature => ?_
  · cases hkey.symm.trans hother.1
    exact ⟨reply, h.signings_append⟩
  · exact absurd hholds (hnone key)
  · exact (hok signature).trans (gives_sign_iff h.signings_append).symm

theorem served_sign {outcome : Except Crash (Except Error Bytes)} (h : (sign address data).Takes before t outcome after)
    (hsound : Sound hrp before) : Call.Served ⟨.sign address data, before, t, outcome, after⟩ := by
  rcases Action.takes_bind.1 h with ⟨failure, hkey, rfl⟩ | ⟨key, u, v, middle, rfl, hkey, h⟩
  · obtain ⟨hlooks, hnone⟩ := takes_pubKey_failure hkey
    have hnil := hlooks.signings_eq_nil
    refine hlooks.served hsound rfl rfl ⟨fun key hholds => ?_, fun _ => hnil⟩ fun signature => ?_
    · have hsome := hholds.1
      simp [hnone] at hsome
    · refine iff_of_false Failure.result_ne ?_
      rintro ⟨_, signing, hsigning, _⟩
      simp [hnil] at hsigning
  · obtain ⟨hlooks, hok⟩ := takes_pubKey hkey
    have hfound := (hok key).1 rfl
    rcases Action.takes_bind.1 h with ⟨failure, hreply, rfl⟩ | ⟨signature, x, y, last, rfl, hreply, hchecked⟩
    · obtain ⟨⟨reply, rfl, hfailed⟩, rfl⟩ := takes_signature.1 hreply
      apply hlooks.served_sign hsound hfound
      intro signature
      rw [← hfailed]
      exact iff_of_false Failure.result_ne fun hgives => Failure.result_ne hgives.2
    · obtain ⟨⟨reply, rfl, hgiven⟩, rfl⟩ := takes_signature.1 hreply
      split at hchecked
      case isTrue hlength =>
        obtain ⟨rfl, rfl, rfl⟩ := Action.takes_pure.1 hchecked
        rw [List.append_nil]
        apply hlooks.served_sign hsound hfound
        intro other
        rw [← hgiven]
        constructor
        · rintro ⟨⟩
          exact ⟨hlength, rfl⟩
        · exact And.right
      case isFalse hlength =>
        obtain ⟨rfl, rfl, rfl⟩ := Action.takes_throw.1 hchecked
        rw [List.append_nil]
        apply hlooks.served_sign hsound hfound
        intro other
        rw [← hgiven]
        refine iff_of_false nofun ?_
        rintro ⟨hother, ⟨⟩⟩
        exact hlength hother

theorem served_of_takes {request : Request} {outcome : Except Crash (Except Error request.Result)}
    (h : request.action.Takes before t outcome after) (hsound : Sound hrp before) :
    Call.Served ⟨request, before, t, outcome, after⟩ := by
  cases request with
  | accounts => exact served_accounts h
  | pubKey address => exact served_pubKey h hsound
  | sign address data => exact served_sign h hsound
  | signer address => exact served_signer h hsound

/-! ## Requests one after another -/

variable {calls : List Call} {keyring later : Keyring}

theorem Run.served (h : Run keyring calls later) (hsound : Sound hrp keyring) :
    Sound hrp later ∧ ∀ call ∈ calls, Sound hrp call.before ∧ Sound hrp call.after ∧ call.Served := by
  induction h with
  | done => exact ⟨hsound, List.forall_mem_nil _⟩
  | next first rest ih =>
    have hserved := served_of_takes first hsound
    have hafter := hserved.refreshes.sound hsound
    obtain ⟨hlater, hcalls⟩ := ih hafter
    exact ⟨hlater, List.forall_mem_cons.2 ⟨⟨hsound, hafter, hserved⟩, hcalls⟩⟩

/-- Whatever a keystore replies, every call on a keyring that starts empty finds and leaves each key under its own
address, and is served: with a listing only where the key is unknown, from the map of a whole listing or the one before,
and with the reply of the keystore to the key of the address. -/
theorem keys_found_by_address (hrp : String) (calls : List Call) (later : Keyring) (h : Run (empty hrp) calls later) :
    Sound hrp later ∧ ∀ call ∈ calls, Sound hrp call.before ∧ Sound hrp call.after ∧ call.Served :=
  h.served sound_empty

section
variable {σ : Type} (pass : Nat → σ → σ) (answer : (q : KeystoreQuestion) → σ → q.Answer × σ)

/-- The calls that these requests come to in a world that answers them. -/
def callsIn : List Request → Keyring → σ → List Call
  | [], _, _ => []
  | request :: requests, keyring, s =>
    let events := (request.action.run keyring).transcript (S := keystore) pass answer s
    match (request.action.run keyring).run (S := keystore) pass answer s with
    | (.ok (outcome, after), s) => ⟨request, keyring, events, outcome, after⟩ :: callsIn requests after s
    | (.error _, _) => []

theorem exists_run (requests : List Request) (keyring : Keyring) (s : σ) :
    ∃ later, Run keyring (callsIn pass answer requests keyring s) later := by
  induction requests generalizing keyring s with
  | nil => exact ⟨keyring, .done⟩
  | cons request requests ih =>
    have htakes : (request.action.run keyring).Takes
        ((request.action.run keyring).transcript (S := keystore) pass answer s)
        ((request.action.run keyring).run (S := keystore) pass answer s).1 := Dialogue.takes_transcript _ s
    rw [callsIn]
    generalize (request.action.run keyring).run (S := keystore) pass answer s = ended at htakes
    match ended, htakes with
    | (.ok (outcome, after), s), htakes =>
      obtain ⟨later, hrest⟩ := ih after s
      exact ⟨later, @Run.next ⟨request, keyring, _, outcome, after⟩ _ _ htakes hrest⟩
    | (.error c, s), htakes => exact ⟨keyring, .done⟩

end

/-- A keystore that lists these accounts, one listing after another, and gives the same signature every time. -/
def listing : (q : KeystoreQuestion) → List (Reply (List String)) → q.Answer × List (Reply (List String))
  | .accounts, [] => (.ok [], [])
  | .accounts, reply :: replies => (reply, replies)
  | .sign _ _, replies => (.ok (List.replicate 64 0), replies)

/-- The addresses of the empty key and of the key of one byte, one. -/
def sampleAddresses : String × String :=
  ("wasm1k3e2yekshkyuzdcx5sfjena3da7rh87tfdc7g8", "wasm1c5dkd08dtezfzqqm6upxd9msmn85gzvzmdvrvy")

def sampleCalls : List Call :=
  callsIn (fun _ replies => replies) listing
    [.pubKey sampleAddresses.1, .accounts, .sign sampleAddresses.1 [1, 2, 3], .accounts, .signer sampleAddresses.1,
      .pubKey sampleAddresses.2]
    (empty "wasm") [.error .missingTxHash, .ok [""], .ok ["01", "xyz"], .ok ["01"]]

def Call.succeeds (call : Call) : Bool :=
  match call.outcome with
  | .ok (.ok _) => true
  | _ => false

/-- Two listings cannot be used, a call is served without one before and after the second of them, and the last one
replaces the only address by another. -/
theorem keys_found_by_address_of_sample :
    sampleCalls.map (fun call => (call.succeeds, (listings call.events).length, call.after.keys)) =
      [(false, 1, []), (true, 1, [(sampleAddresses.1, [])]), (true, 0, [(sampleAddresses.1, [])]),
        (false, 1, [(sampleAddresses.1, [])]), (true, 0, [(sampleAddresses.1, [])]),
        (true, 1, [(sampleAddresses.2, [1])])] ∧
    ∀ call ∈ sampleCalls, Sound "wasm" call.before ∧ Sound "wasm" call.after ∧ call.Served := by
  refine ⟨by decide +kernel, ?_⟩
  obtain ⟨later, hrun⟩ := exists_run (fun _ replies => replies) listing _ (empty "wasm") _
  exact (keys_found_by_address "wasm" sampleCalls later hrun).2

end ReportRelay.Keyring
