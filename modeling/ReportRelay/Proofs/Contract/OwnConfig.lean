import ReportRelay.Proofs.Contract.Attributes
import ReportRelay.Proofs.Contract.Reading

/-!
# Whose configuration is read

The transactions in which a contract announces a configuration are searched for, but what is read is the first
announcement in the first log of the first of them, whoever made it. So the contract's own configuration is what is
read if that announcement is its own, and not otherwise, unless it is incomplete or says the same.
-/

namespace ReportRelay.Contract

open Dialogue

variable {address : String} {block : Nat} {txs : List TxResponse} {config : ContractConfig} {event : ChainEvent}

/-! ## Announcements -/

/-- The contract announces a configuration by the event. -/
def AnnouncedBy (address : String) (event : ChainEvent) : Prop :=
  event.kind = setConfigEvent ∧ ⟨"contract_address", address⟩ ∈ event.attributes

instance : DecidablePred (AnnouncedBy address) :=
  fun event => inferInstanceAs (Decidable (event.kind = setConfigEvent ∧ _))

def eventsOf (txs : List TxResponse) : List ChainEvent :=
  txs.flatMap fun tx => tx.logs.flatMap TxLog.events

/-- What is found by searching for the contract's announcements: there are transactions, and each has one. -/
def FoundFor (address : String) (txs : List TxResponse) : Prop :=
  txs ≠ [] ∧ ∀ tx ∈ txs, ∃ event ∈ eventsOf [tx], AnnouncedBy address event

/-- The contract itself announces the configuration in the transactions. -/
def OwnIn (address : String) (txs : List TxResponse) (config : ContractConfig) : Prop :=
  ∃ event ∈ eventsOf txs, AnnouncedBy address event ∧
    ∃ unknown, ContractConfig.ofAttributes event.attributes = .ok (config, unknown)

/-- The first announcement in the first log of the first transaction. -/
def firstAnnouncement? (txs : List TxResponse) : Option ChainEvent := do
  let tx ← txs.head?
  let log ← tx.logs.head?
  log.events.find? fun event => event.kind = setConfigEvent

theorem announcement_eq_ok_iff {conditions : List String} :
    announcement block conditions txs = .ok event ↔ firstAnnouncement? txs = some event := by
  unfold announcement
  match txs with
  | [] => exact iff_of_false nofun nofun
  | ⟨_, _, _, _, []⟩ :: _ => exact iff_of_false nofun nofun
  | ⟨_, _, _, _, log :: _⟩ :: _ =>
    change (if log.events.isEmpty then _ else _) = _ ↔
      (log.events.find? fun event => event.kind = setConfigEvent) = some event
    split
    next hempty =>
      rw [List.isEmpty_iff.1 hempty]
      exact iff_of_false nofun nofun
    next =>
      cases log.events.find? fun event => event.kind = setConfigEvent with
      | none => exact iff_of_false nofun nofun
      | some found => simp only [Except.ok.injEq, Option.some.injEq]

/-! ## What is read -/

/-- The configuration is what a reading returns when the transactions are found. -/
def ReadFrom (address : String) (block : Nat) (txs : List TxResponse) (config : ContractConfig) : Prop :=
  ∃ (start finish : Nat) (t : List (Dated client)) (reply : Reply (List TxResponse)),
    (Contract.config address block).Lasts start t finish (.ok (.ok config)) ∧
      ⟨start, .search (setConfigConditions address block), reply⟩ ∈ t ∧ reply.outcome = .ok (.ok txs)

theorem readFrom_iff : ReadFrom address block txs config ↔ configIn address block txs = .ok config := by
  constructor
  · rintro ⟨start, finish, t, reply, hlasts, hmem, htxs⟩
    obtain ⟨reply', rfl, -, hsaid⟩ := lasts_config.1 hlasts
    cases List.mem_singleton.1 hmem
    obtain ⟨txs', htxs', hconfig⟩ := Reply.comesTo_eq_ok_iff.1 hsaid.symm
    cases htxs.symm.trans htxs'
    exact hconfig
  · intro h
    refine ⟨0, 0, _, .ok txs, lasts_config.2 ⟨.ok txs, rfl, rfl, ?_⟩, List.mem_singleton_self _, rfl⟩
    exact (Reply.comesTo_eq_ok_iff.2 ⟨txs, rfl, h⟩).symm

/-- What is read is what the first announcement says. -/
theorem readFrom_iff_first : ReadFrom address block txs config ↔
    ∃ event, firstAnnouncement? txs = some event ∧
      ∃ unknown, ContractConfig.ofAttributes event.attributes = .ok (config, unknown) := by
  simp only [readFrom_iff, configIn, bind_eq_ok_iff, announcement_eq_ok_iff]
  refine exists_congr fun event => and_congr_right fun _ => ?_
  constructor
  · rintro ⟨⟨_, unknown⟩, hread, hconfig⟩
    cases hconfig
    exact ⟨unknown, hread⟩
  · rintro ⟨unknown, hread⟩
    exact ⟨(config, unknown), hread, rfl⟩

/-- What is read is always the contract's own configuration exactly if the first announcement is incomplete, or the
contract makes an announcement, such as this one, that says the same. -/
theorem reads_own_iff (address : String) (block : Nat) (txs : List TxResponse) :
    (∀ config, ReadFrom address block txs config → OwnIn address txs config) ↔
      ∀ event, firstAnnouncement? txs = some event → ¬ContractConfig.Complete event.attributes ∨
        ∃ own ∈ eventsOf txs, AnnouncedBy address own ∧
          (ContractConfig.ofAttributes own.attributes).map Prod.fst =
            (ContractConfig.ofAttributes event.attributes).map Prod.fst := by
  constructor
  · intro hown event hfirst
    by_cases hcomplete : ContractConfig.Complete event.attributes
    · obtain ⟨⟨config, unknown⟩, hread⟩ := ContractConfig.exists_ofAttributes_iff.2 hcomplete
      obtain ⟨own, hmem, hby, unknown', hsame⟩ := hown config (readFrom_iff_first.2 ⟨event, hfirst, unknown, hread⟩)
      refine .inr ⟨own, hmem, hby, ?_⟩
      rw [hread, hsame]
      rfl
    · exact .inl hcomplete
  · intro hfirst config hread
    obtain ⟨event, hevent, unknown, hconfig⟩ := readFrom_iff_first.1 hread
    have hcomplete := ContractConfig.exists_ofAttributes_iff.1 ⟨_, hconfig⟩
    obtain ⟨own, hmem, hby, hsame⟩ := (hfirst event hevent).resolve_left (not_not.2 hcomplete)
    rw [hconfig] at hsame
    obtain ⟨⟨_, unknown'⟩, hown, rfl⟩ := map_eq_ok_iff.1 hsame
    exact ⟨own, hmem, hby, unknown', hown⟩

/-! ## Another contract's announcement in front -/

def announcedFor (address count : String) : ChainEvent where
  kind := setConfigEvent
  attributes := [⟨"contract_address", address⟩, ⟨"config_count", count⟩, ⟨"f", "1"⟩,
    ⟨"latest_config_digest", String.ofList (List.replicate 64 '0')⟩, ⟨"offchain_config", ""⟩,
    ⟨"offchain_config_version", "2"⟩, ⟨"onchain_config", ""⟩, ⟨"signers", ""⟩, ⟨"transmitters", ""⟩]

/-- A transaction in which another contract's configuration is set before the contract's own. -/
def foreignFirst : List TxResponse :=
  [⟨"", 0, 0, "", [⟨[announcedFor "other" "1", announcedFor "contract" "2"]⟩]⟩]

theorem foundFor_foreignFirst : FoundFor "contract" foreignFirst := by
  refine ⟨List.cons_ne_nil _ _, List.forall_mem_singleton.2 ⟨announcedFor "contract" "2", ?_, ?_⟩⟩ <;> decide

set_option maxRecDepth 10000 in
theorem configIn_foreignFirst :
    configIn "contract" 0 foreignFirst = .ok ⟨.zero, 1, [[]], [""], 1, [], 2, []⟩ := by
  decide +kernel

set_option maxRecDepth 10000 in
theorem ofAttributes_announcedFor :
    (ContractConfig.ofAttributes (announcedFor "contract" "2").attributes).map Prod.fst =
      .ok ⟨.zero, 2, [[]], [""], 1, [], 2, []⟩ := by
  decide +kernel

/-- A reading may return a configuration that the contract never announced. -/
theorem not_reads_own_of_foreignFirst : ¬∀ (address : String) (block : Nat) (txs : List TxResponse),
    FoundFor address txs → ∀ config, ReadFrom address block txs config → OwnIn address txs config := by
  intro h
  obtain ⟨event, hmem, hby, unknown, hown⟩ :=
    h "contract" 0 foreignFirst foundFor_foreignFirst _ (readFrom_iff.2 configIn_foreignFirst)
  have hevent : event = announcedFor "contract" "2" := by
    rcases List.mem_cons.1 hmem with rfl | hmem
    · exact absurd hby (by decide)
    · exact List.mem_singleton.1 hmem
  have hread := ofAttributes_announcedFor
  rw [← hevent, hown] at hread
  cases hread

end ReportRelay.Contract
