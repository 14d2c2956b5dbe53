import ReportRelay.Proofs.Contract.Announced

/-!
# Searches that are skipped

While the contract reports the block and the digest of the configuration that is cached, no search is made. Where the
events of a block are always the same, this cannot be told from a cache that searches at every refresh.
-/

namespace ReportRelay.Contract.Cache

open Dialogue

variable {address : String} {start finish : Nat} {cache plain : Cache} {refresh other : Refresh}
  {u : List (Dated interface)}

/-! ## A cache that always searches -/

/-- Updates the configuration by a search, whatever the cache holds. -/
def refetchConfig (address : String) : Action Unit := do
  let details ← reading (configDetails address)
  fetch address details.block

/-- Updates both sides at the same time, the configuration by a search. -/
def refetch (address : String) : Action Unit :=
  joined (refetchConfig address) (updateTransmission address)

theorem exists_configSide_of_refetch {r : Except Error Unit}
    (h : (refetchConfig address).Lasts start u finish (.ok r)) : ∃ update,
      ConfigSide address (fun _ => none) cache start u update ∧ update.completed = finish ∧
        r = update.outcome.map fun _ => () := by
  rcases Attempt.lasts_bind.1 h with ⟨failure, hread, hr⟩ | ⟨details, _, v, middle, rfl, hread, hfetch⟩
  · obtain ⟨_, rfl, hdetails⟩ := lasts_reading.1 hread
    obtain ⟨reply, rfl, rfl, hsaid⟩ := lasts_configDetails.1 hdetails
    cases failure with
    | crash => cases hr
    | error e =>
      cases hr
      refine ⟨⟨_, .error e⟩, ⟨.unread hsaid.symm, fun time => ?_, ?_⟩, rfl, rfl⟩
      · exact congrArg Cache.config (afterAll_upTo_map_asked _)
      · exact List.forall_mem_singleton.2 fun _ => rfl
  · obtain ⟨_, rfl, hdetails⟩ := lasts_reading.1 hread
    obtain ⟨reply, rfl, rfl, hsaid⟩ := lasts_configDetails.1 hdetails
    obtain ⟨second, result, hfound, rfl, rfl, hasks, hleaves, hconfig⟩ :=
      fetched_of_course (fetchCourse_of_lasts hfetch)
    refine ⟨⟨_, result.map fun config => (details.block, config)⟩, ⟨?_, fun time => ?_, ?_⟩, rfl,
      by cases result <;> rfl⟩
    · change ConfigUpdate address _ start
        (⟨start, stateOf address "latest_config_details", reply⟩ :: chainEvents v) _
      rw [hasks]
      exact .searched hsaid.symm rfl hfound
    · rw [afterAll_upTo_asked]
      exact hconfig cache time
    · exact List.forall_mem_cons.2 ⟨fun _ => rfl, hleaves⟩

theorem exists_brings_of_refetch (made : refresh.MadeOn (refetch address) cache) :
    ∃ updates, refresh.Brings address (fun _ => none) cache updates :=
  exists_brings made fun h _ => exists_configSide_of_refetch h

/-! ## Chains whose events do not change -/

/-- What a chain says in a refresh where it is asked. -/
structure Behaviour where
  details : Except Crash (Except Error Bytes)
  search : Nat → Except Crash (Except Error (List TxResponse))

/-- This is what the chain said in the refresh. -/
structure Behaviour.Answers (address : String) (behaviour : Behaviour) (refresh : Refresh) : Prop where
  details : ∀ time (reply : Reply Bytes),
    ⟨time, stateOf address "latest_config_details", reply⟩ ∈ askedForConfig refresh.course →
      reply.outcome = behaviour.details
  search : ∀ block time (reply : Reply (List TxResponse)),
    ⟨time, .search (setConfigConditions address block), reply⟩ ∈ askedForConfig refresh.course →
      reply.outcome = behaviour.search block

/-- A search that succeeds finds what there is in the block. -/
def Behaviour.FindsOnly (found : Nat → List TxResponse) (behaviour : Behaviour) : Prop :=
  ∀ block txs, behaviour.search block = .ok (.ok txs) → txs = found block

/-- The chain says the same in both refreshes, and finds what there is. -/
def Alike (address : String) (found : Nat → List TxResponse) (refresh other : Refresh) : Prop :=
  ∃ behaviour : Behaviour, behaviour.FindsOnly found ∧ behaviour.Answers address refresh ∧
    behaviour.Answers address other

/-- The block and the configuration that are cached, without their age. -/
def content (cache : Cache) : Option (Nat × ContractConfig) :=
  cache.config.map fun cached => (cached.block, cached.config)

/-- What is cached is what there is in its block. -/
def Sound (address : String) (found : Nat → List TxResponse) (cache : Cache) : Prop :=
  ∀ block config, cache.content = some (block, config) → configIn address block (found block) = .ok config

/-- What the sides of the configuration come to in two refreshes alike, of which the second one always searches. -/
inductive Twins (address : String) (found : Nat → List TxResponse) (cache : Cache) (other : Refresh) :
    Except Error (Nat × ContractConfig) → Except Error (Nat × ContractConfig) → Prop
  | failed {e e' : Error} : Twins address found cache other (.error e) (.error e')
  | same {block : Nat} {config : ContractConfig} (sound : configIn address block (found block) = .ok config) :
    Twins address found cache other (.ok (block, config)) (.ok (block, config))
  | kept {block : Nat} {config : ContractConfig} {e e' : Error}
    (sound : configIn address block (found block) = .ok config) (held : cache.content = some (block, config))
    (time : Nat) (reply : Reply (List TxResponse))
    (searched : ⟨time, .search (setConfigConditions address block), reply⟩ ∈ askedForConfig other.course)
    (unanswered : reply.outcome = .ok (.error e')) :
    Twins address found cache other (.ok (block, config)) (.error e)

theorem Behaviour.FindsOnly.configIn_eq {found : Nat → List TxResponse} {behaviour : Behaviour} {block : Nat}
    {reply : Reply (List TxResponse)} {config : ContractConfig} (finds : behaviour.FindsOnly found)
    (h : reply.outcome = behaviour.search block) (said : reply.comesTo (configIn address block) = .ok (.ok config)) :
    configIn address block (found block) = .ok config := by
  obtain ⟨txs, htxs, hconfig⟩ := Reply.comesTo_eq_ok_iff.1 said
  rw [finds block txs (h.symm.trans htxs)] at hconfig
  exact hconfig

theorem twins_of_brings {updates updates' : Updates} {found : Nat → List TxResponse}
    (alike : Alike address found refresh other) (brings : refresh.Brings address cache.kept cache updates)
    (plainly : other.Brings address (fun _ => none) plain updates') (sound : cache.Sound address found) :
    Twins address found cache other updates.config.outcome updates'.config.outcome := by
  obtain ⟨behaviour, finds, ⟨hdetails, hsearch⟩, ⟨hdetails', hsearch'⟩⟩ := alike
  have hupdate := brings.config
  have hupdate' := plainly.config
  generalize askedForConfig refresh.course = t at hupdate hdetails hsearch
  generalize ht' : askedForConfig other.course = t' at hupdate' hdetails' hsearch'
  have hmem' : ∀ m ∈ t', m ∈ askedForConfig other.course := fun _ hm => ht' ▸ hm
  generalize updates.config = update at hupdate ⊢
  generalize updates'.config = update' at hupdate' ⊢
  have agree {start start' : Nat} {reply reply' : Reply Bytes} {rest rest' : List (Dated client)}
      {result result' : Except Error ConfigDetails}
      (h : ⟨start, stateOf address "latest_config_details", reply⟩ :: rest = t)
      (h' : ⟨start', stateOf address "latest_config_details", reply'⟩ :: rest' = t')
      (said : reply.comesTo detailsIn = .ok result) (said' : reply'.comesTo detailsIn = .ok result') :
      result = result' := by
    subst h h'
    exact Reply.eq_of_comesTo
      ((hdetails _ _ List.mem_cons_self).trans (hdetails' _ _ List.mem_cons_self).symm) said said'
  -- Both were told the same details, so they come to an end in the same way but for the search.
  cases hupdate with
  | unread said =>
    cases hupdate' with
    | unread => exact .failed
    | kept _ held => cases held
    | searched said' => cases agree rfl rfl said said'
  | @kept reply details config said held =>
    have hcontent : cache.content = some (details.block, config) := by
      obtain ⟨⟨updated, hconfig⟩, _⟩ := kept_eq_some_iff.1 held
      rw [content, hconfig]
      rfl
    cases hupdate' with
    | unread said' => cases agree rfl rfl said said'
    | kept _ held => cases held
    | @searched _ _ second result said' _ hfound =>
      cases agree rfl rfl said said'
      have hsecond := hsearch' details.block _ second (List.mem_cons_of_mem _ (List.mem_singleton_self _))
      have hsound := sound _ _ hcontent
      cases result with
      | ok config' =>
        cases hsound.symm.trans (finds.configIn_eq hsecond hfound)
        exact .same hsound
      | error e =>
        -- What is kept is in the block, so a search that was answered would have found it.
        rcases Reply.comesTo_eq_error hfound with hout | ⟨txs, hout, hnone⟩
        · exact .kept hsound hcontent _ second (hmem' _ (List.mem_cons_of_mem _ (List.mem_singleton_self _))) hout
        · rw [finds _ txs (hsecond.symm.trans hout), hsound] at hnone
          cases hnone
  | @searched reply details second result said missing hfound =>
    cases hupdate' with
    | unread said' => cases agree rfl rfl said said'
    | kept _ held => cases held
    | @searched _ _ second' result' said' _ hfound' =>
      cases agree rfl rfl said said'
      have hsecond := hsearch details.block _ second (List.mem_cons_of_mem _ (List.mem_singleton_self _))
      have hsecond' := hsearch' details.block _ second' (List.mem_cons_of_mem _ (List.mem_singleton_self _))
      obtain rfl := Reply.eq_of_comesTo (hsecond.trans hsecond'.symm) hfound hfound'
      cases result with
      | error e => exact .failed
      | ok config => exact .same (finds.configIn_eq hsecond hfound)

theorem content_after {action : Action Unit} {kept : ConfigDetails → Option ContractConfig} {updates : Updates}
    (brings : refresh.Brings address kept cache updates) (made : refresh.MadeOn action cache) :
    (cache.afterAll refresh.course).content =
      match updates.config.outcome with
      | .ok value => some value
      | .error _ => cache.content := by
  rw [content, brings.config_after made]
  cases updates.config.outcome <;> rfl

/-- Alike refreshes of two caches that hold the same leave them with the same. -/
theorem same_content_after {found : Nat → List TxResponse} (made : refresh.MadeOn (Cache.refresh address) cache)
    (refetched : other.MadeOn (refetch address) plain) (alike : Alike address found refresh other)
    (same : cache.content = plain.content) (sound : cache.Sound address found) :
    (cache.afterAll refresh.course).content = (plain.afterAll other.course).content ∧
      (cache.afterAll refresh.course).Sound address found := by
  obtain ⟨updates, brings⟩ := exists_brings_of_refresh made
  obtain ⟨updates', plainly⟩ := exists_brings_of_refetch refetched
  have htwins := twins_of_brings alike brings plainly sound
  unfold Sound
  rw [content_after brings made, content_after plainly refetched]
  generalize updates.config.outcome = x at htwins ⊢
  generalize updates'.config.outcome = y at htwins ⊢
  cases htwins with
  | failed => exact ⟨same, sound⟩
  | same there =>
    refine ⟨rfl, ?_⟩
    rintro _ _ ⟨⟩
    exact there
  | kept there held =>
    refine ⟨held.symm.trans same, ?_⟩
    rintro _ _ ⟨⟩
    exact there

theorem same_content_leftBy {found : Nat → List TxResponse} {begin begin' : Nat} {refreshes others : List Refresh}
    (made : MadeInTurn (Cache.refresh address) begin cache refreshes)
    (refetched : MadeInTurn (refetch address) begin' plain others)
    (alike : List.Forall₂ (Alike address found) refreshes others)
    (same : cache.content = plain.content) (sound : cache.Sound address found) :
    (cache.leftBy refreshes).content = (plain.leftBy others).content ∧
      (cache.leftBy refreshes).Sound address found := by
  induction alike generalizing begin begin' cache plain with
  | nil => exact ⟨same, sound⟩
  | cons halike _ ih =>
    obtain ⟨_, hmade, hlater⟩ := made
    obtain ⟨_, hrefetched, hlater'⟩ := refetched
    obtain ⟨hsame, hsound⟩ := same_content_after hmade hrefetched halike same sound
    unfold leftBy
    rw [List.flatMap_cons, List.flatMap_cons, afterAll_append, afterAll_append]
    exact ih hlater hlater' hsame hsound

/-! ## What is searched and what is served -/

def Refresh.Searches (refresh : Refresh) : Prop :=
  ∃ (time : Nat) (conditions : List String) (reply : Reply (List TxResponse)),
    ⟨time, .search conditions, reply⟩ ∈ chainEvents refresh.course

/-- This configuration of this block is served, and is served as long as it is not older than the time to live. -/
def Serves (cache : Cache) (updated block : Nat) (config : ContractConfig) : Prop :=
  ∀ ttl now, (cache.servedDetails ttl now = .ok ⟨block, config.digest⟩ ↔ now ≤ updated + ttl) ∧
    (cache.servedConfig ttl now block = .ok config ↔ now ≤ updated + ttl)

theorem serves_of_config {updated block : Nat} {config : ContractConfig}
    (h : cache.config = some ⟨updated, block, config⟩) : cache.Serves updated block config := by
  intro ttl now
  simp only [servedDetails_eq_ok_iff, servedConfig_eq_ok_iff, h]
  constructor
  · constructor
    · rintro ⟨_, _, _, ⟨⟩, hage, _⟩
      exact hage
    · exact fun hage => ⟨updated, block, config, rfl, hage, rfl⟩
  · constructor
    · rintro ⟨_, ⟨⟩, hage⟩
      exact hage
    · exact fun hage => ⟨updated, rfl, hage⟩

theorem exists_config_of_content {block : Nat} {config : ContractConfig} (h : cache.content = some (block, config)) :
    ∃ updated, cache.config = some ⟨updated, block, config⟩ := by
  obtain ⟨⟨updated, _, _⟩, hcached, ⟨⟩⟩ := Option.map_eq_some_iff.1 h
  exact ⟨updated, hcached⟩

theorem searches_iff {updates : Updates} (brings : refresh.Brings address cache.kept cache updates) :
    refresh.Searches ↔ ∃ details, refresh.Reports address details ∧ ∀ cached, cache.config = some cached →
      ¬(cached.block = details.block ∧ cached.config.digest = details.digest) := by
  have hupdate := brings.config
  generalize updates.config = update at hupdate
  simp only [← kept_eq_none_iff]
  constructor
  · rintro ⟨time, conditions, reply, hmem⟩
    have hasked : ⟨time, .search conditions, reply⟩ ∈ askedForConfig refresh.course := List.mem_filter.2 ⟨hmem, rfl⟩
    unfold Refresh.Reports
    generalize askedForConfig refresh.course = t at hupdate hasked ⊢
    cases hupdate with
    | unread | kept => cases List.mem_singleton.1 hasked
    | @searched reply details second result said missing => exact ⟨details, ⟨reply, _, rfl, said⟩, missing⟩
  · rintro ⟨details, ⟨reply, rest, hasked, hsaid⟩, hnone⟩
    have hmem : ∀ m ∈ askedForConfig refresh.course, m ∈ chainEvents refresh.course := fun _ => List.mem_of_mem_filter
    rw [hasked] at hupdate hmem
    generalize ht : _ :: rest = t at hupdate hmem
    cases hupdate with
    | unread said =>
      cases ht
      cases hsaid.symm.trans said
    | kept said held =>
      cases ht
      cases hsaid.symm.trans said
      cases hnone.symm.trans held
    | @searched _ details' second _ =>
      exact ⟨_, _, second, hmem _ (List.mem_cons_of_mem _ (List.mem_singleton_self _))⟩

/-- The refresh of one cache cannot be told from that of the other one, which always searches: it searches where the
contract reports what the cache does not hold, and if its side of the configuration succeeds, both caches serve the same
configuration of the block that was reported. The other one has it from the same refresh, unless its search failed. -/
structure SkipsInvisibly (address : String) (cache plain : Cache) (refresh other : Refresh)
    (updates plainly : Updates) : Prop where
  brings : refresh.Brings address cache.kept cache updates
  refetches : other.Brings address (fun _ => none) plain plainly
  searches : refresh.Searches ↔ ∃ details, refresh.Reports address details ∧ ∀ cached, cache.config = some cached →
    ¬(cached.block = details.block ∧ cached.config.digest = details.digest)
  reported : ∀ block config, updates.config.outcome = .ok (block, config) →
    ∃ digest, refresh.Reports address ⟨block, digest⟩
  serves : ∀ block config, updates.config.outcome = .ok (block, config) →
    (cache.afterAll refresh.course).Serves updates.config.completed block config ∧
      ∃ updated, (plain.afterAll other.course).Serves updated block config ∧
        ((∀ time (reply : Reply (List TxResponse)),
            ⟨time, .search (setConfigConditions address block), reply⟩ ∈ askedForConfig other.course →
              ∃ txs, reply.outcome = .ok (.ok txs)) →
          plainly.config.outcome = .ok (block, config) ∧ plainly.config.completed = updated)

/-- Refreshes that skip searches do the same as refreshes that never do. -/
theorem skipping_invisible {found : Nat → List TxResponse} {begin begin' : Nat} {earlier others : List Refresh}
    (made : MadeInTurn (Cache.refresh address) begin .empty (earlier ++ [refresh]))
    (refetched : MadeInTurn (refetch address) begin' .empty (others ++ [other]))
    (alike : List.Forall₂ (Alike address found) earlier others) (last : Alike address found refresh other) :
    ∃ updates plainly, SkipsInvisibly address (Cache.empty.leftBy earlier) (Cache.empty.leftBy others) refresh other
      updates plainly := by
  obtain ⟨hearlier, hmade⟩ := made.of_concat
  obtain ⟨hothers, hrefetched⟩ := refetched.of_concat
  obtain ⟨hsame, hsound⟩ := same_content_leftBy hearlier hothers alike rfl nofun
  obtain ⟨updates, brings⟩ := exists_brings_of_refresh hmade
  obtain ⟨plainly, brings'⟩ := exists_brings_of_refetch hrefetched
  refine ⟨updates, plainly, brings, brings', searches_iff brings, fun block config hok => ?_,
    fun block config hok => ?_⟩
  · obtain ⟨reply, details, said, rfl, hasked⟩ := brings.config.exists_of_ok hok
    rcases hasked with ⟨hasked, _⟩ | ⟨_, hasked, _⟩ <;> exact ⟨details.digest, reply, _, hasked, said⟩
  · have hafter := brings.config_after hmade
    have hafter' := brings'.config_after hrefetched
    have htwins := twins_of_brings last brings brings' hsound
    rw [hok] at hafter htwins
    refine ⟨serves_of_config hafter, ?_⟩
    generalize hx : (Except.ok (block, config) : Except Error (Nat × ContractConfig)) = x at htwins
    generalize hy : plainly.config.outcome = y at hafter' htwins ⊢
    cases htwins with
    | failed => cases hx
    | same =>
      cases hx
      exact ⟨plainly.config.completed, serves_of_config hafter', fun _ => ⟨rfl, rfl⟩⟩
    | kept _ held time reply hsearched unanswered =>
      cases hx
      obtain ⟨updated, hcached⟩ := exists_config_of_content (hsame.symm.trans held)
      refine ⟨updated, serves_of_config (hafter'.trans hcached), fun hall => ?_⟩
      obtain ⟨txs, hanswered⟩ := hall time reply hsearched
      cases unanswered.symm.trans hanswered

/-! ## Two caches of the sample contract -/

def sampleBehaviour : Behaviour where
  details := .ok (.ok (sampleDetails 1))
  search _ := .ok (.ok [sampleTx [zeroHex]])

theorem sampleBehaviour_answers {action : Action Unit} :
    sampleBehaviour.Answers "contract" (.scripted sampleScript action start cache (.ok ())) where
  details time reply h := by
    have hreply : reply = (Reply.ok (sampleDetails 1) : Reply Bytes) :=
      details_of_contractScript (List.mem_of_mem_filter h)
    rw [hreply]
    rfl
  search block time reply h := by
    have hreply : reply = (Reply.ok [sampleTx [zeroHex]] : Reply (List TxResponse)) :=
      answer_eq_of_script _ (List.mem_of_mem_filter h)
    rw [hreply]
    rfl

theorem alike_of_sample {action action' : Action Unit} {start' : Nat} : Alike "contract" (fun _ => [sampleTx [zeroHex]])
    (.scripted sampleScript action start cache (.ok ())) (.scripted sampleScript action' start' plain (.ok ())) := by
  refine ⟨sampleBehaviour, ?_, sampleBehaviour_answers, sampleBehaviour_answers⟩
  rintro _ _ ⟨⟩
  rfl

def firstPlain : Refresh :=
  .scripted sampleScript (refetch "contract") 0 .empty (.ok ())

def secondPlain : Refresh :=
  .scripted sampleScript (refetch "contract") 10 (Cache.empty.afterAll firstPlain.course) (.ok ())

set_option maxRecDepth 10000 in
theorem plain_madeInTurn : MadeInTurn (refetch "contract") 0 .empty [firstPlain, secondPlain] := by
  have hfirst : firstPlain.MadeOn (refetch "contract") .empty := madeOn_scripted (by decide +kernel)
  have hsecond : secondPlain.MadeOn (refetch "contract") (Cache.empty.afterAll firstPlain.course) :=
    madeOn_scripted (by decide +kernel)
  have hlater : firstPlain.finish ≤ secondPlain.start := by decide +kernel
  exact ⟨Nat.le_refl 0, hfirst, hlater, hsecond, trivial⟩

theorem skipping_invisible_of_sample :
    MadeInTurn (Cache.refresh "contract") 0 .empty ([firstRefresh] ++ [secondRefresh]) ∧
      MadeInTurn (refetch "contract") 0 .empty ([firstPlain] ++ [secondPlain]) ∧
      List.Forall₂ (Alike "contract" fun _ => [sampleTx [zeroHex]]) [firstRefresh] [firstPlain] ∧
      Alike "contract" (fun _ => [sampleTx [zeroHex]]) secondRefresh secondPlain ∧
      ∃ updates plainly, SkipsInvisibly "contract" (Cache.empty.leftBy [firstRefresh]) (Cache.empty.leftBy [firstPlain])
        secondRefresh secondPlain updates plainly :=
  have halike : List.Forall₂ (Alike "contract" fun _ => [sampleTx [zeroHex]]) [firstRefresh] [firstPlain] :=
    .cons alike_of_sample .nil
  ⟨madeInTurn_sample, plain_madeInTurn, halike, alike_of_sample,
    skipping_invisible madeInTurn_sample plain_madeInTurn halike alike_of_sample⟩

end ReportRelay.Contract.Cache
