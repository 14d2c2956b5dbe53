import ReportRelay.Proofs.Contract.Updates

/-!
# What is served at any time

While refreshes are made one after another, the cache serves of each side what the latest update of that side brought,
from its completion on and as long as the time to live lasts.
-/

namespace ReportRelay.Contract.Cache

open Dialogue

variable {α γ : Type} {address : String} {begin time ttl : Nat} {cache : Cache} {action : Action Unit}
  {refresh : Refresh} {refreshes : List Refresh}

/-! ## What a cache serves -/

theorem checkAge_eq_ok_iff {updated : Nat} : checkAge ttl updated time = .ok () ↔ time ≤ updated + ttl := by
  unfold checkAge
  dsimp only
  split
  next h => exact iff_of_false nofun (by omega)
  next h => exact iff_of_true rfl (by omega)

theorem served_of_age {updated : Nat} {a b : α} :
    (checkAge ttl updated time).map (fun _ => a) = .ok b ↔ time ≤ updated + ttl ∧ a = b := by
  rw [← checkAge_eq_ok_iff]
  cases checkAge ttl updated time with
  | error e => exact iff_of_false nofun (fun h => nomatch h.1)
  | ok => exact ⟨fun h => ⟨rfl, Except.ok.inj h⟩, fun h => congrArg _ h.2⟩

theorem currentConfig_eq_ok_iff {cached : CachedConfig} :
    cache.currentConfig ttl time = .ok cached ↔ cache.config = some cached ∧ time ≤ cached.updatedAt + ttl := by
  unfold currentConfig
  cases cache.config with
  | none => exact iff_of_false nofun (fun h => nomatch h.1)
  | some held =>
    rw [served_of_age, Option.some.injEq]
    constructor
    · rintro ⟨hage, rfl⟩
      exact ⟨rfl, hage⟩
    · rintro ⟨rfl, hage⟩
      exact ⟨hage, rfl⟩

theorem servedDetails_eq_ok_iff {details : ConfigDetails} : cache.servedDetails ttl time = .ok details ↔
    ∃ updated block config, cache.config = some ⟨updated, block, config⟩ ∧ time ≤ updated + ttl ∧
      details = ⟨block, config.digest⟩ := by
  unfold servedDetails
  rw [map_eq_ok_iff]
  simp only [currentConfig_eq_ok_iff]
  constructor
  · rintro ⟨⟨updated, block, config⟩, ⟨hconfig, hage⟩, rfl⟩
    exact ⟨updated, block, config, hconfig, hage, rfl⟩
  · rintro ⟨updated, block, config, hconfig, hage, rfl⟩
    exact ⟨_, ⟨hconfig, hage⟩, rfl⟩

theorem servedConfig_eq_ok_iff {block : Nat} {config : ContractConfig} :
    cache.servedConfig ttl time block = .ok config ↔
      ∃ updated, cache.config = some ⟨updated, block, config⟩ ∧ time ≤ updated + ttl := by
  unfold servedConfig
  rw [bind_eq_ok_iff]
  simp only [currentConfig_eq_ok_iff]
  constructor
  · rintro ⟨⟨updated, block', config'⟩, ⟨hconfig, hage⟩, hserved⟩
    dsimp only at hserved
    split at hserved
    next h =>
      cases hserved
      exact ⟨updated, h ▸ hconfig, hage⟩
    next => cases hserved
  · rintro ⟨updated, hconfig, hage⟩
    refine ⟨_, ⟨hconfig, hage⟩, ?_⟩
    exact if_pos rfl

theorem servedTransmission_eq_ok_iff {transmission : Transmission} :
    cache.servedTransmission ttl time = .ok transmission ↔
      ∃ updated, cache.transmission = some ⟨updated, transmission⟩ ∧ time ≤ updated + ttl := by
  unfold servedTransmission
  cases cache.transmission with
  | none => exact iff_of_false nofun (fun h => nomatch h.choose_spec.1)
  | some held =>
    rw [served_of_age]
    constructor
    · rintro ⟨hage, rfl⟩
      exact ⟨held.updatedAt, rfl, hage⟩
    · rintro ⟨_, ⟨⟩, hage⟩
      exact ⟨hage, rfl⟩

theorem servedRound_eq_ok_iff {round : ConfigDigest × UInt32 × UInt8} : cache.servedRound ttl time = .ok round ↔
    ∃ transmission, cache.servedTransmission ttl time = .ok transmission ∧
      (transmission.digest, transmission.epoch, transmission.round) = round :=
  map_eq_ok_iff

/-! ## Refreshes one after another -/

/-- The refreshes were made on the cache one after another, the first one not before `begin`. -/
def MadeInTurn (action : Action Unit) : Nat → Cache → List Refresh → Prop
  | _, _, [] => True
  | begin, cache, refresh :: later =>
    begin ≤ refresh.start ∧ refresh.MadeOn action cache ∧
      MadeInTurn action refresh.finish (cache.afterAll refresh.course) later

/-- What refreshes have left of a cache. -/
def leftBy (cache : Cache) (refreshes : List Refresh) : Cache :=
  cache.afterAll (refreshes.flatMap Refresh.course)

theorem MadeInTurn.of_concat (made : MadeInTurn action begin cache (refreshes ++ [refresh])) :
    MadeInTurn action begin cache refreshes ∧ refresh.MadeOn action (cache.leftBy refreshes) := by
  induction refreshes generalizing begin cache with
  | nil => exact ⟨trivial, made.2.1⟩
  | cons first later ih =>
    obtain ⟨hbegin, hfirst, hrest⟩ := made
    obtain ⟨hlater, hmade⟩ := ih hrest
    refine ⟨⟨hbegin, hfirst, hlater⟩, ?_⟩
    unfold leftBy
    rw [List.flatMap_cons, afterAll_append]
    exact hmade

/-- What has become of a cache until some time. -/
def heldAt (cache : Cache) (time : Nat) (refreshes : List Refresh) : Cache :=
  cache.afterAll (upTo time (refreshes.flatMap Refresh.course))

/-- What each of the refreshes brought to the cache that it found. -/
def Account (address : String) : Cache → List Refresh → List Updates → Prop
  | _, [], [] => True
  | cache, refresh :: later, updates :: rest =>
    refresh.Brings address cache.kept cache updates ∧ Account address (cache.afterAll refresh.course) later rest
  | _, _, _ => False

/-- The update has succeeded by some time. -/
def Update.DoneBy (time : Nat) (update : Update α) : Prop :=
  ∃ a, update.outcome = .ok a ∧ update.completed ≤ time

/-- Of the updates that have succeeded by some time, the latest was completed then and brought this. -/
def IsLatest (time : Nat) (updates : List (Update α)) (completed : Nat) (a : α) : Prop :=
  ∃ earlier later, updates = earlier ++ ⟨completed, .ok a⟩ :: later ∧ completed ≤ time ∧
    ∀ update ∈ later, ¬update.DoneBy time

/-- What updates one after another make of what was kept before. -/
def keptAt (keep : Nat → α → γ) (time : Nat) (before : Option γ) (updates : List (Update α)) : Option γ :=
  updates.foldl (fun before update => update.on keep before time) before

theorem isLatest_cons {update : Update α} {later : List (Update α)} {completed : Nat} {a : α} :
    IsLatest time (update :: later) completed a ↔ IsLatest time later completed a ∨
      update = ⟨completed, .ok a⟩ ∧ completed ≤ time ∧ ∀ update ∈ later, ¬update.DoneBy time := by
  constructor
  · rintro ⟨earlier, rest, heq, hdone⟩
    cases earlier with
    | nil =>
      cases heq
      exact .inr ⟨rfl, hdone⟩
    | cons first earlier =>
      cases heq
      exact .inl ⟨earlier, rest, rfl, hdone⟩
  · rintro (⟨earlier, rest, rfl, hdone⟩ | ⟨rfl, hdone⟩)
    · exact ⟨update :: earlier, rest, rfl, hdone⟩
    · exact ⟨[], later, rfl, hdone⟩

theorem Update.on_of_not_doneBy {keep : Nat → α → γ} {update : Update α} {before : Option γ}
    (h : ¬update.DoneBy time) : update.on keep before time = before := by
  unfold Update.on
  split
  next a ha => exact if_neg fun hle => h ⟨a, ha, hle⟩
  next => rfl

theorem keptAt_eq_some_iff {keep : Nat → α → γ} {updates : List (Update α)} {before : Option γ} {kept : γ} :
    keptAt keep time before updates = some kept ↔
      (∃ completed a, IsLatest time updates completed a ∧ keep completed a = kept) ∨
        (∀ update ∈ updates, ¬update.DoneBy time) ∧ before = some kept := by
  induction updates generalizing before with
  | nil =>
    constructor
    · exact fun h => .inr ⟨List.forall_mem_nil _, h⟩
    · rintro (⟨_, _, ⟨earlier, _, heq, _⟩, _⟩ | ⟨_, h⟩)
      · cases earlier <;> cases heq
      · exact h
  | cons update later ih =>
    have hstep : keptAt keep time before (update :: later) = keptAt keep time (update.on keep before time) later := rfl
    rw [hstep, ih]
    constructor
    · rintro (⟨completed, a, hlatest, hkept⟩ | ⟨hlater, hon⟩)
      · exact .inl ⟨completed, a, isLatest_cons.2 (.inl hlatest), hkept⟩
      · by_cases hdone : update.DoneBy time
        · obtain ⟨completed, _⟩ := update
          obtain ⟨a, rfl, hle⟩ := hdone
          have hkept : some (keep completed a) = some kept := (if_pos hle).symm.trans hon
          exact .inl ⟨completed, a, isLatest_cons.2 (.inr ⟨rfl, hle, hlater⟩), Option.some.inj hkept⟩
        · rw [Update.on_of_not_doneBy hdone] at hon
          exact .inr ⟨List.forall_mem_cons.2 ⟨hdone, hlater⟩, hon⟩
    · rintro (⟨completed, a, hlatest, hkept⟩ | ⟨hnone, hbefore⟩)
      · rcases isLatest_cons.1 hlatest with hlatest | ⟨rfl, hle, hlater⟩
        · exact .inl ⟨completed, a, hlatest, hkept⟩
        · exact .inr ⟨hlater, (if_pos hle).trans (congrArg some hkept)⟩
      · obtain ⟨hdone, hlater⟩ := List.forall_mem_cons.1 hnone
        exact .inr ⟨hlater, (Update.on_of_not_doneBy hdone).trans hbefore⟩

theorem keptAt_of_not_doneBy {keep : Nat → α → γ} {updates : List (Update α)} {before : Option γ}
    (h : ∀ update ∈ updates, ¬update.DoneBy time) : keptAt keep time before updates = before := by
  induction updates with
  | nil => rfl
  | cons update later ih =>
    obtain ⟨hupdate, hlater⟩ := List.forall_mem_cons.1 h
    exact (congrArg (fun kept => keptAt keep time kept later) (Update.on_of_not_doneBy hupdate)).trans (ih hlater)

/-! ## Runs -/

theorem MadeInTurn.begin_le (made : MadeInTurn action begin cache refreshes) :
    ∀ m ∈ refreshes.flatMap Refresh.course, begin ≤ m.time := by
  induction refreshes generalizing begin cache with
  | nil => exact List.forall_mem_nil _
  | cons refresh later ih =>
    obtain ⟨hbegin, hmade, hlater⟩ := made
    refine List.forall_mem_append.2 ⟨fun m hm => ?_, fun m hm => ?_⟩
    · exact Nat.le_trans hbegin (hmade.lasts.mem_times hm).1
    · exact Nat.le_trans hbegin (Nat.le_trans hmade.lasts.le (ih hlater m hm))

theorem MadeInTurn.upTo_of_lt (made : MadeInTurn action begin cache refreshes) (h : time < begin) :
    upTo time (refreshes.flatMap Refresh.course) = [] :=
  List.filter_eq_nil_iff.2 fun m hm => by
    have hm := made.begin_le m hm
    exact ne_true_of_eq_false (decide_eq_false (by omega))

theorem Account.not_doneBy {updates : List Updates} (made : MadeInTurn action begin cache refreshes)
    (account : Account address cache refreshes updates) (h : time < begin) :
    ∀ update ∈ updates, ¬update.config.DoneBy time ∧ ¬update.transmission.DoneBy time := by
  induction refreshes generalizing begin cache updates with
  | nil =>
    cases updates with
    | nil => exact List.forall_mem_nil _
    | cons => exact account.elim
  | cons refresh later ih =>
    cases updates with
    | nil => exact account.elim
    | cons update rest =>
      obtain ⟨hbegin, hmade, hlater⟩ := made
      obtain ⟨hbrings, hrest⟩ := account
      have hconfig := hbrings.config.start_le
      have htransmission := hbrings.transmission.le
      have hfinish := hmade.lasts.le
      refine List.forall_mem_cons.2 ⟨⟨?_, ?_⟩, ih hlater hrest (by omega)⟩
      · rintro ⟨_, _, hle⟩
        omega
      · rintro ⟨_, _, hle⟩
        omega

theorem heldAt_eq {updates : List Updates} (made : MadeInTurn action begin cache refreshes)
    (account : Account address cache refreshes updates) : cache.heldAt time refreshes =
      ⟨keptAt ofBlock time cache.config (updates.map Updates.config),
        keptAt .mk time cache.transmission (updates.map Updates.transmission)⟩ := by
  induction refreshes generalizing begin cache updates with
  | nil =>
    cases updates with
    | nil => rfl
    | cons => exact account.elim
  | cons refresh later ih =>
    cases updates with
    | nil => exact account.elim
    | cons update rest =>
      obtain ⟨_, hmade, hlater⟩ := made
      obtain ⟨hbrings, hrest⟩ := account
      have hsplit : cache.heldAt time (refresh :: later) =
          (cache.afterAll (upTo time refresh.course)).heldAt time later := by
        unfold heldAt upTo
        rw [List.flatMap_cons, List.filter_append, afterAll_append]
      have hfirst := hbrings.cached time
      by_cases hfinish : refresh.finish ≤ time
      · rw [hsplit, hmade.upTo_of_le hfinish, ih hlater hrest, ← hmade.upTo_of_le hfinish, hfirst]
        rfl
      · -- The refresh is under way, so nothing of the later ones has been done.
        have hlt : time < refresh.finish := by omega
        have hnone := hrest.not_doneBy hlater hlt
        have hnothing : (cache.afterAll (upTo time refresh.course)).heldAt time later =
            cache.afterAll (upTo time refresh.course) := by
          rw [heldAt, hlater.upTo_of_lt hlt]
          rfl
        rw [hsplit, hnothing, hfirst]
        congr 1
        · refine (keptAt_of_not_doneBy (List.forall_mem_map.2 fun update hupdate => ?_)).symm
          exact (hnone update hupdate).1
        · refine (keptAt_of_not_doneBy (List.forall_mem_map.2 fun update hupdate => ?_)).symm
          exact (hnone update hupdate).2

theorem exists_account (made : MadeInTurn (Cache.refresh address) begin cache refreshes) :
    ∃ updates, Account address cache refreshes updates := by
  induction refreshes generalizing begin cache with
  | nil => exact ⟨[], trivial⟩
  | cons refresh later ih =>
    obtain ⟨_, hmade, hlater⟩ := made
    obtain ⟨update, hbrings⟩ := exists_brings_of_refresh hmade
    obtain ⟨rest, hrest⟩ := ih hlater
    exact ⟨update :: rest, hbrings, hrest⟩

/-- What a cache serves at some time is, of each side, what the latest of the updates brought, as long as it is not
older than the time to live. -/
structure ServesLatest (cache : Cache) (ttl time : Nat) (updates : List Updates) : Prop where
  transmission (transmission : Transmission) : cache.servedTransmission ttl time = .ok transmission ↔
    ∃ completed, IsLatest time (updates.map Updates.transmission) completed transmission ∧ time ≤ completed + ttl
  round (round : ConfigDigest × UInt32 × UInt8) : cache.servedRound ttl time = .ok round ↔
    ∃ completed transmission, IsLatest time (updates.map Updates.transmission) completed transmission ∧
      time ≤ completed + ttl ∧ (transmission.digest, transmission.epoch, transmission.round) = round
  details (details : ConfigDetails) : cache.servedDetails ttl time = .ok details ↔
    ∃ completed block config, IsLatest time (updates.map Updates.config) completed (block, config) ∧
      time ≤ completed + ttl ∧ details = ⟨block, config.digest⟩
  config (block : Nat) (config : ContractConfig) : cache.servedConfig ttl time block = .ok config ↔
    ∃ completed, IsLatest time (updates.map Updates.config) completed (block, config) ∧ time ≤ completed + ttl

theorem serves_latest (made : MadeInTurn (Cache.refresh address) begin .empty refreshes) :
    ∃ updates, Account address .empty refreshes updates ∧
      ∀ ttl time, (Cache.empty.heldAt time refreshes).ServesLatest ttl time updates := by
  obtain ⟨updates, account⟩ := exists_account made
  refine ⟨updates, account, fun ttl time => ?_⟩
  have hconfig (completed block : Nat) (config : ContractConfig) :
      (Cache.empty.heldAt time refreshes).config = some ⟨completed, block, config⟩ ↔
        IsLatest time (updates.map Updates.config) completed (block, config) := by
    rw [heldAt_eq made account]
    refine keptAt_eq_some_iff.trans ⟨?_, fun h => .inl ⟨completed, (block, config), h, rfl⟩⟩
    rintro (⟨completed, ⟨block, config⟩, hlatest, ⟨⟩⟩ | ⟨_, hnone⟩)
    · exact hlatest
    · cases hnone
  have htransmission (completed : Nat) (transmission : Transmission) :
      (Cache.empty.heldAt time refreshes).transmission = some ⟨completed, transmission⟩ ↔
        IsLatest time (updates.map Updates.transmission) completed transmission := by
    rw [heldAt_eq made account]
    refine keptAt_eq_some_iff.trans ⟨?_, fun h => .inl ⟨completed, transmission, h, rfl⟩⟩
    rintro (⟨completed, transmission, hlatest, ⟨⟩⟩ | ⟨_, hnone⟩)
    · exact hlatest
    · cases hnone
  refine ⟨fun transmission => ?_, fun round => ?_, fun details => ?_, fun block config => ?_⟩
  · rw [servedTransmission_eq_ok_iff]
    simp only [htransmission]
  · rw [servedRound_eq_ok_iff]
    simp only [servedTransmission_eq_ok_iff, htransmission]
    constructor
    · rintro ⟨transmission, ⟨completed, hlatest, hage⟩, hround⟩
      exact ⟨completed, transmission, hlatest, hage, hround⟩
    · rintro ⟨completed, transmission, hlatest, hage, hround⟩
      exact ⟨transmission, ⟨completed, hlatest, hage⟩, hround⟩
  · rw [servedDetails_eq_ok_iff]
    simp only [hconfig]
  · rw [servedConfig_eq_ok_iff]
    simp only [hconfig]

/-! ## A sample contract -/

def zeroDigest : Bytes :=
  Bytes.ofText "[" ++ (List.replicate 31 (Bytes.ofText "0,")).flatten ++ Bytes.ofText "0]"

def sampleDetails (block : UInt8) : Bytes :=
  Bytes.ofText "\x7b\"block_number\":" ++ [48 + block] ++ Bytes.ofText ",\"config_digest\":" ++ zeroDigest ++
    Bytes.ofText "\x7d"

def sampleRecord (epoch : UInt8) : Bytes :=
  Bytes.ofText "\x7b\"epoch\":" ++ [48 + epoch] ++
    Bytes.ofText ",\"round\":0,\"latest_answer\":\"0\",\"latest_timestamp\":0,\"latest_config_digest\":" ++
    zeroDigest ++ Bytes.ofText "\x7d"

set_option maxRecDepth 10000 in
theorem comesTo_sampleDetails :
    (Reply.ok (sampleDetails 1) : Reply Bytes).comesTo detailsIn = .ok (.ok ⟨1, .zero⟩) := by
  decide +kernel

/-- An event that sets a configuration with this digest. -/
def sampleEvent (digest : String) : ChainEvent where
  kind := setConfigEvent
  attributes := [⟨"config_count", "1"⟩, ⟨"f", "1"⟩, ⟨"latest_config_digest", digest⟩, ⟨"offchain_config", ""⟩,
    ⟨"offchain_config_version", "2"⟩, ⟨"onchain_config", ""⟩, ⟨"signers", ""⟩, ⟨"transmitters", ""⟩]

def sampleTx (digests : List String) : TxResponse where
  txHash := ""
  height := 0
  code := 0
  rawLog := ""
  logs := [⟨digests.map sampleEvent⟩]

def zeroHex : String :=
  String.ofList (List.replicate 64 '0')

/-- A contract of which everything can be read at once. -/
def sampleScript : Script :=
  contractScript (fun _ => .ok (sampleDetails 1)) (fun _ => .ok (sampleRecord 1)) fun _ => .ok [sampleTx [zeroHex]]

def firstRefresh : Refresh :=
  .scripted sampleScript (Cache.refresh "contract") 0 .empty (.ok ())

set_option maxRecDepth 10000 in
theorem firstRefresh_madeOn : firstRefresh.MadeOn (Cache.refresh "contract") .empty :=
  madeOn_scripted (by decide +kernel)

def secondRefresh : Refresh :=
  .scripted sampleScript (Cache.refresh "contract") 10 (Cache.empty.afterAll firstRefresh.course) (.ok ())

set_option maxRecDepth 10000 in
theorem secondRefresh_madeOn :
    secondRefresh.MadeOn (Cache.refresh "contract") (Cache.empty.afterAll firstRefresh.course) :=
  madeOn_scripted (by decide +kernel)

theorem madeInTurn_sample : MadeInTurn (Cache.refresh "contract") 0 .empty [firstRefresh, secondRefresh] :=
  have hlater : firstRefresh.finish ≤ secondRefresh.start := by decide +kernel
  ⟨Nat.le_refl 0, firstRefresh_madeOn, hlater, secondRefresh_madeOn, trivial⟩

theorem serves_latest_of_two : MadeInTurn (Cache.refresh "contract") 0 .empty [firstRefresh, secondRefresh] ∧
    ∃ updates, Account "contract" .empty [firstRefresh, secondRefresh] updates ∧
      ∀ ttl time, (Cache.empty.heldAt time [firstRefresh, secondRefresh]).ServesLatest ttl time updates :=
  ⟨madeInTurn_sample, serves_latest madeInTurn_sample⟩

end ReportRelay.Contract.Cache
