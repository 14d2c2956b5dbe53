import Mathlib.Data.List.Sort
import Mathlib.Data.String.Basic
import ReportRelay.Proofs.Except
import ReportRelay.Proofs.Keyring.Action

/-!
# The map of a listing

A listing that can be used replaces the whole map; any other leaves it as it was. So every key that is ever found
under an address hashes to it.
-/

namespace ReportRelay.Keyring

variable {hrp account address : String} {accounts : List String} {entry : String × Bytes}
  {keys start : List (String × Bytes)}

/-- The account is the text of the entry's key, and the address of the entry is the address of its key. -/
structure Enters (hrp account : String) (entry : String × Bytes) : Prop where
  key : pubKeyOf account = .ok entry.2
  address : addressOf entry.2 hrp = .ok entry.1

/-- The keys map the addresses of these accounts, and no others, each to the key of an account that has it. -/
structure Maps (hrp : String) (accounts : List String) (keys : List (String × Bytes)) : Prop where
  distinct : (keys.map Prod.fst).Nodup
  backed : ∀ entry ∈ keys, ∃ account ∈ accounts, Enters hrp account entry
  covered : ∀ account ∈ accounts, ∀ entry, Enters hrp account entry → entry.1 ∈ keys.map Prod.fst

theorem mem_insert {pubKey : Bytes} :
    entry ∈ insert keys address pubKey ↔ entry ∈ keys ∧ entry.1 ≠ address ∨ entry = (address, pubKey) := by
  simp [insert]

theorem mem_addresses_insert {other : String} {pubKey : Bytes} :
    other ∈ (insert keys address pubKey).map Prod.fst ↔ other ∈ keys.map Prod.fst ∨ other = address := by
  by_cases h : other = address <;> simp [insert, h]

theorem nodup_insert {pubKey : Bytes} (h : (keys.map Prod.fst).Nodup) :
    ((insert keys address pubKey).map Prod.fst).Nodup := by
  have hkept : ((keys.filter fun entry => entry.1 ≠ address).map Prod.fst).Nodup :=
    h.sublist (List.filter_sublist.map _)
  simp only [insert, List.map_append, List.nodup_append]
  refine ⟨hkept, List.nodup_singleton _, ?_⟩
  simp

/-- The map of all accounts exists exactly when each of them has an address, and enters them one after another. -/
theorem keysOf_eq_ok_iff : keysOf hrp accounts start = .ok keys ↔
    ∃ entries, List.Forall₂ (Enters hrp) accounts entries ∧
      entries.foldl (fun keys entry => insert keys entry.1 entry.2) start = keys := by
  induction accounts generalizing start with
  | nil => simp [keysOf]
  | cons account rest ih =>
    simp only [keysOf, bind_eq_ok_iff, ih]
    constructor
    · rintro ⟨pubKey, hkey, address, haddress, entries, hentries, rfl⟩
      exact ⟨(address, pubKey) :: entries, .cons ⟨hkey, haddress⟩ hentries, rfl⟩
    · rintro ⟨_, _ | @⟨_, entry, _, entries, henters, hentries⟩, rfl⟩
      exact ⟨entry.2, henters.key, entry.1, henters.address, entries, hentries, rfl⟩

theorem mem_of_mem_foldl_insert {entries : List (String × Bytes)}
    (h : entry ∈ entries.foldl (fun keys entry => insert keys entry.1 entry.2) start) :
    entry ∈ start ∨ entry ∈ entries := by
  induction entries generalizing start with
  | nil => exact .inl h
  | cons first entries ih =>
    rcases ih h with h | h
    · rcases mem_insert.1 h with ⟨h, _⟩ | rfl
      · exact .inl h
      · exact .inr List.mem_cons_self
    · exact .inr (List.mem_cons_of_mem _ h)

theorem mem_addresses_foldl_insert {entries : List (String × Bytes)} :
    address ∈ (entries.foldl (fun keys entry => insert keys entry.1 entry.2) start).map Prod.fst ↔
      address ∈ start.map Prod.fst ∨ address ∈ entries.map Prod.fst := by
  induction entries generalizing start with
  | nil => simp
  | cons first entries ih =>
    simp only [List.foldl_cons, ih, mem_addresses_insert, List.map_cons, List.mem_cons, or_assoc]

theorem nodup_foldl_insert {entries : List (String × Bytes)} (h : (start.map Prod.fst).Nodup) :
    ((entries.foldl (fun keys entry => insert keys entry.1 entry.2) start).map Prod.fst).Nodup := by
  induction entries generalizing start with
  | nil => exact h
  | cons first entries ih => exact ih (nodup_insert h)

theorem Enters.unique {other : String × Bytes} (h : Enters hrp account entry) (ho : Enters hrp account other) :
    entry = other := by
  have hkey : entry.2 = other.2 := Except.ok.inj (h.key.symm.trans ho.key)
  have haddress := ho.address
  rw [← hkey, h.address] at haddress
  exact Prod.ext (Except.ok.inj haddress) hkey

/-- Of two lists that are paired, each element has its partner. -/
theorem exists_partner {α β : Type} {R : α → β → Prop} {as : List α} {bs : List β} (h : List.Forall₂ R as bs) {a : α}
    (ha : a ∈ as) : ∃ b ∈ bs, R a b := by
  induction h with
  | nil => cases ha
  | cons hfirst _ ih =>
    rcases List.mem_cons.1 ha with rfl | ha
    · exact ⟨_, List.mem_cons_self, hfirst⟩
    · obtain ⟨b, hb, hab⟩ := ih ha
      exact ⟨b, List.mem_cons_of_mem _ hb, hab⟩

theorem maps_of_keysOf (h : keysOf hrp accounts [] = .ok keys) : Maps hrp accounts keys := by
  obtain ⟨entries, hentries, rfl⟩ := keysOf_eq_ok_iff.1 h
  refine ⟨nodup_foldl_insert List.nodup_nil, ?_, ?_⟩
  · intro entry hentry
    rcases mem_of_mem_foldl_insert hentry with hnil | hentry
    · cases hnil
    · exact exists_partner hentries.flip hentry
  · intro account haccount entry hentry
    obtain ⟨own, hown, henters⟩ := exists_partner hentries haccount
    rw [hentry.unique henters]
    exact mem_addresses_foldl_insert.2 (.inr (List.mem_map_of_mem hown))

theorem Maps.mem_addresses_iff (h : Maps hrp accounts keys) :
    address ∈ keys.map Prod.fst ↔ ∃ account ∈ accounts, ∃ key, Enters hrp account (address, key) := by
  constructor
  · intro haddress
    obtain ⟨⟨_, key⟩, hentry, rfl⟩ := List.mem_map.1 haddress
    obtain ⟨account, haccount, henters⟩ := h.backed _ hentry
    exact ⟨account, haccount, key, henters⟩
  · rintro ⟨account, haccount, key, henters⟩
    exact h.covered account haccount _ henters

theorem Maps.sortedLT (h : Maps hrp accounts keys) : (keys.map Prod.fst).mergeSort.SortedLT :=
  List.sortedLE_mergeSort.sortedLT_of_nodup ((List.mergeSort_perm _ _).nodup_iff.2 h.distinct)

theorem exists_keysOf_iff :
    (∃ keys, keysOf hrp accounts [] = .ok keys) ↔ ∀ account ∈ accounts, ∃ entry, Enters hrp account entry := by
  simp only [keysOf_eq_ok_iff]
  constructor
  · rintro ⟨_, entries, hentries, _⟩ account haccount
    obtain ⟨entry, _, henters⟩ := exists_partner hentries haccount
    exact ⟨entry, henters⟩
  · intro h
    choose! enters henters using h
    refine ⟨_, accounts.map enters, ?_, rfl⟩
    rw [List.forall₂_map_right_iff, List.forall₂_same]
    exact henters

/-! ## Refreshing -/

/-- A listing that has come, with an address for each of its accounts. -/
def Usable (hrp : String) (reply : Reply (List String)) (accounts : List String) : Prop :=
  reply.outcome = .ok (.ok accounts) ∧ ∀ account ∈ accounts, ∃ entry, Enters hrp account entry

/-- What the listings of a call make of the keyring. -/
inductive Refreshes (before : Keyring) : List (Reply (List String)) → Keyring → Prop
  | unasked : Refreshes before [] before
  | replaced {reply : Reply (List String)} {accounts : List String} {keys : List (String × Bytes)}
    (usable : Usable before.hrp reply accounts) (maps : Maps before.hrp accounts keys) :
    Refreshes before [reply] { before with keys }
  | kept {reply : Reply (List String)} (unusable : ∀ accounts, ¬Usable before.hrp reply accounts) :
    Refreshes before [reply] before

/-- Every key stands under its address, and no address stands twice. -/
structure Sound (hrp : String) (keyring : Keyring) : Prop where
  hrp_eq : keyring.hrp = hrp
  distinct : (keyring.keys.map Prod.fst).Nodup
  hashes : ∀ entry ∈ keyring.keys, addressOf entry.2 hrp = .ok entry.1

theorem sound_empty : Sound hrp (empty hrp) :=
  ⟨rfl, List.nodup_nil, List.forall_mem_nil _⟩

variable {before after : Keyring} {replies : List (Reply (List String))}

theorem Refreshes.sound (h : Refreshes before replies after) (hsound : Sound hrp before) : Sound hrp after := by
  cases h with
  | unasked | kept => exact hsound
  | replaced usable maps =>
    refine ⟨hsound.hrp_eq, maps.distinct, fun entry hentry => ?_⟩
    obtain ⟨account, _, henters⟩ := maps.backed entry hentry
    rw [← hsound.hrp_eq]
    exact henters.address

theorem Sound.addressOf_of_lookup {keyring : Keyring} {pubKey : Bytes} (h : Sound hrp keyring)
    (hkey : keyring.keys.lookup address = some pubKey) : addressOf pubKey hrp = .ok address := by
  obtain ⟨front, back, hkeys, _⟩ := List.lookup_eq_some_iff.1 hkey
  apply h.hashes (address, pubKey)
  simp [hkeys]

variable {t : List (Event keystore)}

theorem takes_listing {outcome : Except Crash (Except Error (List String))} :
    (Action.ofReply (Dialogue.question (S := keystore) .accounts)).Takes before t outcome after ↔
      (∃ reply : Reply (List String), t = [⟨.accounts, reply⟩] ∧ outcome = reply.outcome) ∧ after = before :=
  Action.takes_ofReply_ask

/-- A refresh asks for one listing. It replaces the keys by those of a usable one, and fails otherwise. -/
theorem takes_refresh {outcome : Except Crash (Except Error Unit)} (h : refresh.Takes before t outcome after) :
    ∃ reply : Reply (List String), t = [⟨.accounts, reply⟩] ∧
      ((∃ accounts keys, Usable before.hrp reply accounts ∧ Maps before.hrp accounts keys ∧ outcome = .ok (.ok ()) ∧
          after = { before with keys }) ∨
        (∀ accounts, ¬Usable before.hrp reply accounts) ∧ (∃ failure : Failure, outcome = failure.result) ∧
          after = before) := by
  rw [refresh, Action.takes_bind] at h
  rcases h with ⟨failure, hlisting, rfl⟩ | ⟨accounts, u, v, middle, rfl, hlisting, h⟩
  · obtain ⟨⟨reply, rfl, hreply⟩, rfl⟩ := takes_listing.1 hlisting
    refine ⟨reply, rfl, .inr ⟨?_, ⟨failure, rfl⟩, rfl⟩⟩
    rintro accounts ⟨hlisted, _⟩
    rw [← hreply] at hlisted
    cases failure <;> cases hlisted
  · obtain ⟨⟨reply, rfl, hreply⟩, rfl⟩ := takes_listing.1 hlisting
    rw [Action.takes_get_bind, Action.takes_liftExcept_bind] at h
    rcases h with ⟨e, hkeys, rfl, rfl, rfl⟩ | ⟨keys, hkeys, h⟩
    · refine ⟨reply, List.append_nil _, .inr ⟨?_, ⟨.error e, rfl⟩, rfl⟩⟩
      rintro others ⟨hlisted, haddresses⟩
      rw [← hreply] at hlisted
      cases hlisted
      obtain ⟨keys, hok⟩ := exists_keysOf_iff.2 haddresses
      rw [hkeys] at hok
      cases hok
    · obtain ⟨rfl, rfl, rfl⟩ := Action.takes_set.1 h
      have haddresses := exists_keysOf_iff.1 ⟨keys, hkeys⟩
      exact ⟨reply, List.append_nil _, .inl ⟨accounts, keys, ⟨hreply.symm, haddresses⟩, maps_of_keysOf hkeys, rfl, rfl⟩⟩

theorem takes_refresh_ok {done : Unit} (h : refresh.Takes before t (.ok (.ok done)) after) :
    ∃ (reply : Reply (List String)) (accounts : List String) (keys : List (String × Bytes)),
      t = [⟨.accounts, reply⟩] ∧ Usable before.hrp reply accounts ∧ Maps before.hrp accounts keys ∧
        after = { before with keys } := by
  obtain ⟨reply, rfl, ⟨accounts, keys, husable, hmaps, _, rfl⟩ | ⟨_, ⟨failure, hfailed⟩, _⟩⟩ := takes_refresh h
  · exact ⟨reply, accounts, keys, rfl, husable, hmaps, rfl⟩
  · exact absurd hfailed.symm Failure.result_ne

theorem takes_refresh_failure {failure : Failure} (h : refresh.Takes before t failure.result after) :
    ∃ reply : Reply (List String), t = [⟨.accounts, reply⟩] ∧ (∀ accounts, ¬Usable before.hrp reply accounts) ∧
      after = before := by
  obtain ⟨reply, rfl, ⟨_, _, _, _, hok, _⟩ | ⟨hunusable, _, rfl⟩⟩ := takes_refresh h
  · exact absurd hok Failure.result_ne
  · exact ⟨reply, rfl, hunusable, rfl⟩

end ReportRelay.Keyring
