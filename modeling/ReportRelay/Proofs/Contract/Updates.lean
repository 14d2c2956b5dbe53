import ReportRelay.Proofs.Contract.Joined
import ReportRelay.Proofs.Contract.Parts

/-!
# What a refresh brings

What each side of a refresh comes to, and when, is told by the replies in its course. At every moment on the way the
cache holds, of each side, what there was before or what the refresh has brought.
-/

namespace ReportRelay.Contract.Cache

open Dialogue

variable {α γ : Type} {address : String} {start finish : Nat} {cache : Cache} {u v : List (Dated interface)}

/-! ## What one side brings -/

/-- What one side of a refresh came to, and when. -/
structure Update (α : Type) where
  completed : Nat
  outcome : Except Error α

/-- What is kept at some time where an update is made: from its completion on it is what the update brings, and
otherwise what there was before. -/
def Update.on (keep : Nat → α → γ) (update : Update α) (before : Option γ) (time : Nat) : Option γ :=
  match update.outcome with
  | .ok a => if update.completed ≤ time then some (keep update.completed a) else before
  | .error _ => before

/-- A configuration of a block, as it is cached. -/
def ofBlock (updated : Nat) (value : Nat × ContractConfig) : CachedConfig :=
  ⟨updated, value.1, value.2⟩

/-- What an update of the configuration comes to, where for some details a configuration is kept and needs no search. -/
inductive ConfigUpdate (address : String) (kept : ConfigDetails → Option ContractConfig) (start : Nat) :
    List (Dated client) → Update (Nat × ContractConfig) → Prop
  | unread {reply : Reply Bytes} {e : Error} (said : reply.comesTo detailsIn = .ok (.error e)) :
    ConfigUpdate address kept start [⟨start, stateOf address "latest_config_details", reply⟩]
      ⟨start + reply.nanos, .error e⟩
  | kept {reply : Reply Bytes} {details : ConfigDetails} {config : ContractConfig}
    (said : reply.comesTo detailsIn = .ok (.ok details)) (held : kept details = some config) :
    ConfigUpdate address kept start [⟨start, stateOf address "latest_config_details", reply⟩]
      ⟨start + reply.nanos, .ok (details.block, config)⟩
  | searched {reply : Reply Bytes} {details : ConfigDetails} {second : Reply (List TxResponse)}
    {result : Except Error ContractConfig} (said : reply.comesTo detailsIn = .ok (.ok details))
    (missing : kept details = none) (found : second.comesTo (configIn address details.block) = .ok result) :
    ConfigUpdate address kept start
      [⟨start, stateOf address "latest_config_details", reply⟩,
        ⟨start + reply.nanos, .search (setConfigConditions address details.block), second⟩]
      ⟨start + reply.nanos + second.nanos, result.map fun config => (details.block, config)⟩

theorem ConfigUpdate.concerns {kept : ConfigDetails → Option ContractConfig} {t : List (Dated client)}
    {update : Update (Nat × ContractConfig)} (h : ConfigUpdate address kept start t update) :
    ∀ m ∈ t, concernsConfig m.event.question = true := by
  cases h with
  | unread | kept => exact List.forall_mem_singleton.2 concernsConfig_details
  | searched => exact List.forall_mem_cons.2 ⟨concernsConfig_details, List.forall_mem_singleton.2 rfl⟩

theorem ConfigUpdate.start_le {kept : ConfigDetails → Option ContractConfig} {t : List (Dated client)}
    {update : Update (Nat × ContractConfig)} (h : ConfigUpdate address kept start t update) :
    start ≤ update.completed := by
  cases h with
  | unread | kept => exact Nat.le_add_right _ _
  | searched => exact Nat.le_trans (Nat.le_add_right _ _) (Nat.le_add_right _ _)

/-- An update that succeeded brings the configuration that is kept, or the one that is found. -/
theorem ConfigUpdate.exists_of_ok {kept : ConfigDetails → Option ContractConfig} {t : List (Dated client)}
    {update : Update (Nat × ContractConfig)} {block : Nat} {config : ContractConfig}
    (h : ConfigUpdate address kept start t update) (hok : update.outcome = .ok (block, config)) :
    ∃ (reply : Reply Bytes) (details : ConfigDetails), reply.comesTo detailsIn = .ok (.ok details) ∧
      details.block = block ∧
      (t = [⟨start, stateOf address "latest_config_details", reply⟩] ∧ kept details = some config ∨
        ∃ second : Reply (List TxResponse),
          t = [⟨start, stateOf address "latest_config_details", reply⟩,
            ⟨start + reply.nanos, .search (setConfigConditions address block), second⟩] ∧
          kept details = none ∧ second.comesTo (configIn address block) = .ok (.ok config)) := by
  cases h with
  | unread => cases hok
  | @kept reply details _ said held =>
    cases hok
    exact ⟨reply, details, said, rfl, .inl ⟨rfl, held⟩⟩
  | @searched reply details second result said missing found =>
    cases result with
    | error e => cases hok
    | ok config =>
      cases hok
      exact ⟨reply, details, said, rfl, .inr ⟨second, rfl, missing, found⟩⟩

/-- What the course of a configuration's side tells of it. -/
structure ConfigSide (address : String) (kept : ConfigDetails → Option ContractConfig) (cache : Cache) (start : Nat)
    (u : List (Dated interface)) (update : Update (Nat × ContractConfig)) : Prop where
  asked : ConfigUpdate address kept start (chainEvents u) update
  config : ∀ time, (cache.afterAll (upTo time u)).config = update.on ofBlock cache.config time
  transmission : Leaves transmission u

theorem fetched_of_course {block : Nat} {r : Except Error Unit} {t : List (Dated interface)}
    (h : FetchCourse address block start t finish (.ok r)) :
    ∃ reply : Reply (List TxResponse), ∃ result, reply.comesTo (configIn address block) = .ok result ∧
      finish = start + reply.nanos ∧ r = result.map (fun _ => ()) ∧
      chainEvents t = [⟨start, .search (setConfigConditions address block), reply⟩] ∧ Leaves transmission t ∧
      ∀ (cache : Cache) (time : Nat), (cache.afterAll (upTo time t)).config =
        Update.on ofBlock ⟨finish, result.map fun config => (block, config)⟩ cache.config time := by
  generalize ho : (Except.ok r : Except Crash (Except Error Unit)) = o at h
  cases h with
  | @unfound reply failure said =>
    cases failure with
    | crash => cases ho
    | error e =>
      cases ho
      refine ⟨reply, .error e, said, rfl, rfl, rfl, List.forall_mem_singleton.2 fun _ => rfl, fun cache time => ?_⟩
      rw [afterAll_upTo_cons]
      exact congrArg config (ite_self cache)
  | @found reply config said =>
    cases ho
    refine ⟨reply, .ok config, said, rfl, rfl, rfl, ?_, fun cache time => ?_⟩
    · exact List.forall_mem_cons.2 ⟨fun _ => rfl, List.forall_mem_singleton.2 fun _ => rfl⟩
    · rw [afterAll_upTo_cons, afterAll_upTo_cons]
      have hsearched : cache.after (searched address block start reply) = cache := rfl
      rw [hsearched, ite_self]
      exact apply_ite Cache.config _ _ _

theorem exists_configSide {r : Except Error Unit} (h : (updateConfig address).Lasts start u finish (.ok r))
    (consistent : cache.Consistent u) : ∃ update, ConfigSide address cache.kept cache start u update ∧
      update.completed = finish ∧ r = update.outcome.map fun _ => () := by
  have hasked (time : Nat) (reply : Reply Bytes) (es : List (Dated interface)) :
      cache.afterAll (upTo time (detailsAsked address start reply :: es)) = cache.afterAll (upTo time es) :=
    afterAll_upTo_asked [⟨start, stateOf address "latest_config_details", reply⟩]
  generalize ho : (Except.ok r : Except Crash (Except Error Unit)) = o at h
  cases configCourse_of_lasts h with
  | @unread reply failure said =>
    cases failure with
    | crash => cases ho
    | error e =>
      cases ho
      refine ⟨⟨_, .error e⟩, ⟨.unread said, fun time => ?_, ?_⟩, rfl, rfl⟩
      · rw [hasked]
        rfl
      · exact List.forall_mem_singleton.2 fun _ => rfl
  | @current reply details said =>
    cases ho
    have hgives : cache.Gives ⟨start + reply.nanos, .renew details, true⟩ := consistent.2.1
    obtain ⟨config, hkept⟩ := Option.isSome_iff_exists.1 (gives_renew_iff.1 hgives).symm
    refine ⟨⟨_, .ok (details.block, config)⟩, ⟨.kept said hkept, fun time => ?_, ?_⟩, rfl, rfl⟩
    · have hrenew : (cache.renew details (start + reply.nanos)).2.config =
          some (ofBlock (start + reply.nanos) (details.block, config)) := by
        rw [renew_eq, hkept]
        rfl
      rw [hasked, afterAll_upTo_cons]
      refine (apply_ite Cache.config _ _ _).trans ?_
      exact congrArg (fun config => if start + reply.nanos ≤ time then config else cache.config) hrenew
    · exact List.forall_mem_cons.2 ⟨fun _ => rfl, List.forall_mem_singleton.2 fun _ => transmission_renew⟩
  | @outdated reply details t _ _ said fetched =>
    cases ho
    have hgives : cache.Gives ⟨start + reply.nanos, .renew details, false⟩ := consistent.2.1
    have hkept : cache.kept details = none :=
      Option.not_isSome_iff_eq_none.1 (ne_true_of_eq_false (gives_renew_iff.1 hgives).symm)
    obtain ⟨second, result, hfound, rfl, rfl, hasks, hleaves, hconfig⟩ := fetched_of_course fetched
    refine ⟨⟨_, result.map fun config => (details.block, config)⟩,
      ⟨?_, fun time => ?_, ?_⟩, rfl, by cases result <;> rfl⟩
    · change ConfigUpdate address cache.kept start
        (⟨start, stateOf address "latest_config_details", reply⟩ :: chainEvents t) _
      rw [hasks]
      exact .searched said hkept hfound
    · -- What is not current is not renewed, so the search begins with the cache as it was.
      have hrenew : cache.after ⟨start + reply.nanos, .renew details, false⟩ = cache := by
        change (cache.renew details (start + reply.nanos)).2 = cache
        rw [renew_eq, hkept]
      rw [hasked, afterAll_upTo_cons, hrenew, ite_self]
      exact hconfig cache time
    · refine List.forall_mem_cons.2 ⟨fun _ => rfl, List.forall_mem_cons.2 ⟨fun _ => ?_, hleaves⟩⟩
      exact transmission_renew

/-- What the course of a transmission's side tells of it. -/
structure TransmissionSide (address : String) (start : Nat) (v : List (Dated interface))
    (update : Update Transmission) : Prop where
  asked : (Contract.transmission address).Lasts start (chainEvents v) update.completed (.ok update.outcome)
  transmission : ∀ (cache : Cache) time,
    (cache.afterAll (upTo time v)).transmission = update.on CachedTransmission.mk cache.transmission time
  config : Leaves config v

theorem exists_transmissionSide {r : Except Error Unit}
    (h : (updateTransmission address).Lasts start v finish (.ok r)) : ∃ update,
      TransmissionSide address start v update ∧ update.completed = finish ∧ r = update.outcome.map fun _ => () := by
  have hleaves (t : List (Dated client)) : Leaves Cache.config (t.map asked) := by
    intro m hm cache
    obtain ⟨_, _, rfl⟩ := List.mem_map.1 hm
    rfl
  generalize ho : (Except.ok r : Except Crash (Except Error Unit)) = o at h
  cases transmissionCourse_of_lasts h with
  | @unread t _ failure read =>
    cases failure with
    | crash => cases ho
    | error e =>
      cases ho
      refine ⟨⟨finish, .error e⟩, ⟨?_, fun cache time => ?_, hleaves t⟩, rfl, rfl⟩
      · rw [chainEvents_map_asked]
        exact read
      · exact congrArg Cache.transmission (afterAll_upTo_map_asked t)
  | @read t _ transmission read =>
    cases ho
    refine ⟨⟨finish, .ok transmission⟩, ⟨?_, fun cache time => ?_, fun m hm => ?_⟩, rfl, rfl⟩
    · have hall : chainEvents (t.map asked ++ [⟨finish, .putTransmission transmission, ()⟩]) = t := by
        rw [chainEvents, List.filterMap_append]
        exact (List.append_nil _).trans (chainEvents_map_asked t)
      rw [hall]
      exact read
    · rw [afterAll_upTo_asked, afterAll_upTo_cons]
      exact apply_ite Cache.transmission _ _ _
    · rcases List.mem_append.1 hm with hm | hm
      · exact hleaves t m hm
      · rw [List.mem_singleton.1 hm]
        exact fun _ => rfl

/-! ## What both sides bring -/

structure Updates where
  config : Update (Nat × ContractConfig)
  transmission : Update Transmission

/-- What a refresh brought to a cache. -/
structure Refresh.Brings (address : String) (kept : ConfigDetails → Option ContractConfig) (cache : Cache)
    (refresh : Refresh) (updates : Updates) : Prop where
  config : ConfigUpdate address kept refresh.start (askedForConfig refresh.course) updates.config
  transmission : (Contract.transmission address).Lasts refresh.start (askedForTransmission refresh.course)
    updates.transmission.completed (.ok updates.transmission.outcome)
  config_le : updates.config.completed ≤ refresh.finish
  transmission_le : updates.transmission.completed ≤ refresh.finish
  result : refresh.result = verdict updates.config.outcome updates.transmission.outcome
  cached : ∀ time, cache.afterAll (upTo time refresh.course) =
    ⟨updates.config.on ofBlock cache.config time, updates.transmission.on .mk cache.transmission time⟩

/-- A refresh whose one side updates the transmission brings what its two sides bring. -/
theorem exists_brings {p : Action Unit} {kept : ConfigDetails → Option ContractConfig} {refresh : Refresh}
    (made : refresh.MadeOn (joined p (updateTransmission address)) cache)
    (side : ∀ {u : List (Dated interface)} {finish : Nat} {r : Except Error Unit},
      p.Lasts refresh.start u finish (.ok r) → cache.Consistent u →
        ∃ update, ConfigSide address kept cache refresh.start u update ∧
          update.completed = finish ∧ r = update.outcome.map fun _ => ()) :
    ∃ updates, refresh.Brings address kept cache updates := by
  obtain ⟨lasts, consistent⟩ := made
  generalize ho : (Except.ok refresh.result : Except Crash (Except Error Unit)) = o at lasts
  cases joinedCourse_of_lasts lasts with
  | crashed => cases ho
  | @ended u v x y first second interleave hu hfirst hv hsecond =>
    have hresult : refresh.result = verdict x y := Except.ok.inj ho
    obtain ⟨transmission, hright, rfl, rfl⟩ := exists_transmissionSide hv
    obtain ⟨config, hleft, rfl, rfl⟩ := side hu (consistent.left interleave hright.config rfl)
    obtain ⟨hconfig, htransmission⟩ := asked_of_interleave interleave hleft.asked.concerns
      (asksOnly_transmission.of_lasts hright.asked)
    refine ⟨⟨config, transmission⟩, ?_, ?_, hfirst, hsecond, ?_, fun time => ?_⟩
    · rw [hconfig]
      exact hleft.asked
    · rw [htransmission]
      exact hright.asked
    · rw [hresult, verdict_map_unit]
    · -- Until any time the two sides are interleaved too, and each leaves the other's part alone.
      have huntil : Interleave (upTo time u) (upTo time v) (upTo time refresh.course) := interleave.filter _
      have hsplit (cache : Cache) : cache = ⟨cache.config, cache.transmission⟩ := rfl
      rw [hsplit (cache.afterAll _), ← hleft.config time, ← hright.transmission cache time]
      congr 1
      · exact part_afterAll config_after huntil (fun m hm => hright.config m (List.mem_of_mem_filter hm)) rfl
      · exact part_afterAll transmission_after huntil.symm
          (fun m hm => hleft.transmission m (List.mem_of_mem_filter hm)) rfl

theorem exists_brings_of_refresh {refresh : Refresh} (made : refresh.MadeOn (Cache.refresh address) cache) :
    ∃ updates, refresh.Brings address cache.kept cache updates :=
  exists_brings made exists_configSide

theorem Refresh.MadeOn.upTo_of_le {action : Action Unit} {refresh : Refresh} {time : Nat}
    (made : refresh.MadeOn action cache) (h : refresh.finish ≤ time) : upTo time refresh.course = refresh.course :=
  List.filter_eq_self.2 fun _ hm => decide_eq_true (Nat.le_trans (made.lasts.mem_times hm).2 h)

/-- What a refresh leaves of the configuration is what it brought, or what there was. -/
theorem Refresh.Brings.config_after {action : Action Unit} {kept : ConfigDetails → Option ContractConfig}
    {refresh : Refresh} {updates : Updates} (brings : refresh.Brings address kept cache updates)
    (made : refresh.MadeOn action cache) : (cache.afterAll refresh.course).config =
      match updates.config.outcome with
      | .ok value => some (ofBlock updates.config.completed value)
      | .error _ => cache.config := by
  rw [← made.upTo_of_le (Nat.le_refl _), brings.cached]
  change updates.config.on ofBlock cache.config refresh.finish = _
  unfold Update.on
  cases updates.config.outcome with
  | error e => rfl
  | ok value => exact if_pos brings.config_le

end ReportRelay.Contract.Cache
