import Mathlib.Data.List.Nodup
import ReportRelay.Proofs.Keyring.Requests
import ReportRelay.Proofs.Text.Hex

/-!
# Accounts by their own ids

The keystore lists the id of an account, and is asked for signatures under the writing of the account's key. The two are
the same text only for ids in lower case.
-/

namespace ReportRelay.Keyring

variable {hrp address account : String} {accounts : List String} {key : Bytes}

theorem pubKeyOf_eq_ok_iff : pubKeyOf account = .ok key ↔ account.toLower = Hex.encode key := by
  rw [← Hex.decode_eq_ok_iff, pubKeyOf]
  cases Hex.decode account <;> simp

theorem pubKeyOf_encode (key : Bytes) : pubKeyOf (Hex.encode key) = .ok key := by
  rw [pubKeyOf, Hex.decode_encode]

/-- The account is listed, and its key hashes to the address. -/
def Listed (hrp : String) (accounts : List String) (address account : String) : Prop :=
  account ∈ accounts ∧ ∃ key, Enters hrp account (address, key)

/-- No key is listed twice. -/
def Distinct (accounts : List String) : Prop :=
  (accounts.map pubKeyOf).Nodup

instance (accounts : List String) : Decidable (Distinct accounts) :=
  inferInstanceAs (Decidable (accounts.map pubKeyOf).Nodup)

/-- Of the texts that spell a key, the listing has the one that the key is written as only if that is the listed one. -/
theorem listed_encode_iff (haccount : account ∈ accounts) (henters : Enters hrp account (address, key))
    (hdistinct : Distinct accounts) : Listed hrp accounts address (Hex.encode key) ↔ account.toLower = account := by
  have hwriting : account.toLower = Hex.encode key := pubKeyOf_eq_ok_iff.1 henters.key
  constructor
  · rintro ⟨hlisted, _⟩
    have hkeys : pubKeyOf account = pubKeyOf (Hex.encode key) := henters.key.trans (pubKeyOf_encode key).symm
    rw [hwriting, ← List.inj_on_of_nodup_map hdistinct haccount hlisted hkeys]
  · intro hlower
    rw [← hwriting, hlower]
    exact ⟨haccount, key, henters⟩

/-! ## The listing that counts -/

variable {replies more : List (Reply (List String))} {before after keyring : Keyring}

/-- The last listing that could be used has these accounts. -/
def InForce (hrp : String) (replies : List (Reply (List String))) (accounts : List String) : Prop :=
  ∃ front reply back, replies = front ++ reply :: back ∧ Usable hrp reply accounts ∧
    ∀ later ∈ back, ∀ others, ¬Usable hrp later others

/-- The keys are those of the listing in force, if there are any. -/
structure Reflects (hrp : String) (replies : List (Reply (List String))) (keyring : Keyring) : Prop where
  hrp_eq : keyring.hrp = hrp
  keys : keyring.keys = [] ∨ ∃ accounts, InForce hrp replies accounts ∧ Maps hrp accounts keyring.keys

theorem reflects_empty : Reflects hrp [] (empty hrp) :=
  ⟨rfl, .inl rfl⟩

theorem InForce.append (h : InForce hrp replies accounts) (hmore : ∀ reply ∈ more, ∀ others, ¬Usable hrp reply others) :
    InForce hrp (replies ++ more) accounts := by
  obtain ⟨front, reply, back, rfl, husable, hback⟩ := h
  refine ⟨front, reply, back ++ more, by simp, husable, ?_⟩
  exact List.forall_mem_append.2 ⟨hback, hmore⟩

theorem Reflects.next (h : Reflects hrp replies before) (hrefreshes : Refreshes before more after) :
    Reflects hrp (replies ++ more) after := by
  obtain ⟨rfl, hkeys⟩ := h
  cases hrefreshes with
  | unasked => simpa using ⟨rfl, hkeys⟩
  | @replaced reply accounts keys usable maps =>
    exact ⟨rfl, .inr ⟨accounts, ⟨replies, reply, [], rfl, usable, List.forall_mem_nil _⟩, maps⟩⟩
  | kept unusable =>
    refine ⟨rfl, hkeys.imp_right ?_⟩
    rintro ⟨accounts, hforce, hmaps⟩
    exact ⟨accounts, hforce.append (List.forall_mem_singleton.2 unusable), hmaps⟩

theorem Reflects.exists_listed (h : Reflects hrp replies keyring) (hkey : keyring.Holds address key) :
    ∃ accounts account, InForce hrp replies accounts ∧ account ∈ accounts ∧ Enters hrp account (address, key) := by
  have hmem : (address, key) ∈ keyring.keys := by
    obtain ⟨front, back, hkeys, _⟩ := List.lookup_eq_some_iff.1 hkey.1
    simp [hkeys]
  rcases h.keys with hnil | ⟨accounts, hforce, hmaps⟩
  · simp [hnil] at hmem
  · obtain ⟨account, haccount, henters⟩ := hmaps.backed _ hmem
    exact ⟨accounts, account, hforce, haccount, henters⟩

/-! ## Runs -/

variable {calls : List Call} {t : List (Event keystore)} {signing : Signing}

theorem listings_append (t u : List (Event keystore)) : listings (t ++ u) = listings t ++ listings u :=
  List.filterMap_append

theorem Run.reflects (h : Run before calls after) (hsound : Sound hrp before)
    (hreflects : Reflects hrp replies before) : Reflects hrp (replies ++ listings (calls.flatMap Call.events)) after := by
  induction h generalizing replies with
  | done => simpa [listings] using hreflects
  | @next call calls later first rest ih =>
    have hserved := served_of_takes first hsound
    have hrest := ih (hserved.refreshes.sound hsound) (hreflects.next hserved.refreshes)
    rwa [List.append_assoc, ← listings_append] at hrest

/-- A signature is asked for under the writing of a key that the call leaves in the map. -/
theorem Call.Served.exists_holds {call : Call} (h : call.Served) {data : Bytes}
    (hsign : call.request = .sign address data) (hsigning : signing ∈ signings call.events) :
    ∃ key, call.after.Holds address key ∧ signing.account = Hex.encode key := by
  have hsigns := h.signs
  rw [hsign] at hsigns
  obtain ⟨hfound, hmissing⟩ := hsigns
  by_cases hkey : ∃ key, call.after.Holds address key
  · obtain ⟨key, hkey⟩ := hkey
    obtain ⟨reply, hasked⟩ := hfound key hkey
    rw [hasked, List.mem_singleton] at hsigning
    exact ⟨key, hkey, congrArg Signing.account hsigning⟩
  · rw [hmissing (not_exists.1 hkey)] at hsigning
    cases hsigning

/-- The two ways to sign for an address. -/
inductive SignsFor (address : String) : Action Bytes → Prop
  | keyring (data : Bytes) : SignsFor address (Keyring.sign address data)
  | handle (handle : Signer) (bytes : Bytes) (bound : handle.address = address) : SignsFor address (handle.sign bytes)

theorem SignsFor.exists_request {x : Action Bytes} (h : SignsFor address x) :
    ∃ data, x = (Request.sign address data).action := by
  cases h with
  | keyring data => exact ⟨data, rfl⟩
  | handle handle bytes bound => exact ⟨Sha256.hash bytes, bound ▸ rfl⟩

variable {x : Action Bytes} {outcome : Except Crash (Except Error Bytes)}

/-- Whatever was done before, a signature for an address is asked for under the id of a listed account of that address,
put in lower case. This is a listed id of the address exactly where the account's own id is in lower case. -/
theorem signs_by_own_id_iff (hrun : Run (empty hrp) calls before) (hsigns : SignsFor address x)
    (htakes : x.Takes before t outcome after) (hsigning : signing ∈ signings t) :
    ∃ accounts account, InForce hrp (listings (calls.flatMap Call.events ++ t)) accounts ∧
      Listed hrp accounts address account ∧ signing.account = account.toLower ∧
      (Distinct accounts → (Listed hrp accounts address signing.account ↔ account.toLower = account)) := by
  obtain ⟨data, rfl⟩ := hsigns.exists_request
  obtain ⟨hsound, _⟩ := hrun.served sound_empty
  have hserved := served_of_takes htakes hsound
  have hreflects := (hrun.reflects sound_empty reflects_empty).next hserved.refreshes
  rw [List.nil_append, ← listings_append] at hreflects
  obtain ⟨key, hkey, hwriting⟩ := hserved.exists_holds rfl hsigning
  obtain ⟨accounts, account, hforce, haccount, henters⟩ := hreflects.exists_listed hkey
  refine ⟨accounts, account, hforce, ⟨haccount, key, henters⟩, ?_, ?_⟩
  · rw [hwriting, pubKeyOf_eq_ok_iff.1 henters.key]
  · rw [hwriting]
    exact listed_encode_iff haccount henters

/-! ## An id in upper case -/

theorem Action.exists_takes {α σ : Type} (pass : Nat → σ → σ) (answer : (q : KeystoreQuestion) → σ → q.Answer × σ)
    (x : Action α) (keyring : Keyring) (s : σ)
    (h : ((x.run keyring).run (S := keystore) pass answer s).1.isOk = true) :
    ∃ outcome after, x.Takes keyring ((x.run keyring).transcript (S := keystore) pass answer s) outcome after := by
  have htakes : (x.run keyring).Takes ((x.run keyring).transcript (S := keystore) pass answer s)
      ((x.run keyring).run (S := keystore) pass answer s).1 := Dialogue.takes_transcript _ s
  cases hended : ((x.run keyring).run (S := keystore) pass answer s).1 with
  | error c =>
    rw [hended] at h
    cases h
  | ok ended =>
    rw [hended] at htakes
    exact ⟨ended.1, ended.2, htakes⟩

def upperCaseId : String :=
  "02ABABABABABABABABABABABABABABABABABABABABABABABABABABABABABABABAB"

/-- A handle for the account of this id. -/
def upperCaseHandle : Signer :=
  ⟨"wasm1ce0n0rv27dwx37dfvhxaaly4lnwelqjuky6pqg", 2 :: List.replicate 32 0xab⟩

/-- What the handle asks of a keystore that has this account only. -/
def upperCaseCourse : List (Event keystore) :=
  ((upperCaseHandle.sign [1, 2, 3]).run (empty "wasm")).transcript (S := keystore) (fun _ replies => replies) listing
    [.ok [upperCaseId]]

theorem signings_upperCaseCourse : (signings upperCaseCourse).map Signing.account = [upperCaseId.toLower] := by
  decide +kernel

theorem listings_upperCaseCourse : (listings upperCaseCourse).map Reply.outcome = [.ok (.ok [upperCaseId])] := by
  decide +kernel

theorem enters_upperCaseId : Enters "wasm" upperCaseId (upperCaseHandle.address, upperCaseHandle.pubKey) :=
  ⟨by decide +kernel, by decide +kernel⟩

theorem exists_takes_upperCaseCourse :
    ∃ outcome after, (upperCaseHandle.sign [1, 2, 3]).Takes (empty "wasm") upperCaseCourse outcome after :=
  Action.exists_takes _ listing _ _ _ (by decide +kernel)

/-- The handle's account is listed in upper case, and passed in lower case. -/
theorem signs_by_own_id_iff_of_upperCase :
    ∃ signing ∈ signings upperCaseCourse, ∃ accounts account, InForce "wasm" (listings upperCaseCourse) accounts ∧
      Listed "wasm" accounts upperCaseHandle.address account ∧ signing.account = account.toLower ∧
      (Distinct accounts →
        (Listed "wasm" accounts upperCaseHandle.address signing.account ↔ account.toLower = account)) := by
  obtain ⟨outcome, after, htakes⟩ := exists_takes_upperCaseCourse
  obtain ⟨signing, hsigning, haccount⟩ := List.map_eq_singleton_iff.1 signings_upperCaseCourse
  have hmem : signing ∈ signings upperCaseCourse := by simp [hsigning]
  exact ⟨signing, hmem, signs_by_own_id_iff .done (.handle _ _ rfl) htakes hmem⟩

/-- The keystore is asked for the signature of an account that it never listed. -/
theorem not_signs_by_own_id_of_upperCase :
    ∃ outcome after reply signing, (upperCaseHandle.sign [1, 2, 3]).Takes (empty "wasm") upperCaseCourse outcome after ∧
      listings upperCaseCourse = [reply] ∧ Usable "wasm" reply [upperCaseId] ∧ Distinct [upperCaseId] ∧
      signing ∈ signings upperCaseCourse ∧ ¬signing.account ∈ [upperCaseId] := by
  obtain ⟨outcome, after, htakes⟩ := exists_takes_upperCaseCourse
  obtain ⟨signing, hsigning, haccount⟩ := List.map_eq_singleton_iff.1 signings_upperCaseCourse
  obtain ⟨reply, hreply, hlisted⟩ := List.map_eq_singleton_iff.1 listings_upperCaseCourse
  refine ⟨outcome, after, reply, signing, htakes, hreply, ⟨hlisted, ?_⟩, by decide +kernel, by simp [hsigning], ?_⟩
  · exact List.forall_mem_singleton.2 ⟨_, enters_upperCaseId⟩
  · rw [haccount]
    decide +kernel

end ReportRelay.Keyring
