import ReportRelay.Contract.Cache
import ReportRelay.Dispatch
import ReportRelay.Proofs.Decimal.Binary64
import ReportRelay.Proofs.Dispatch.Complaints
import ReportRelay.Proofs.Dispatch.LookUpWindow

/-!
# Settings that a relay can run on

A relay runs on its settings if none of them stops a loop or fails every batch. The settings with no fault are not all
of that kind: nobody looks at the poll period of the cache, at a gas limit multiplier that is no number, or at whether
ages can be compared with the timeout of messages.
-/

namespace ReportRelay

namespace Polling

/-- The loop is taken down before its first tick. -/
def DiesAtOnce {S : Interface} (loop : Dialogue S (Except Crash Unit)) : Prop :=
  loop = .done (.error (.text zeroPeriod))

/-- A loop that looks at a clock dies at once only without a period. -/
theorem diesAtOnce_iff {S : Interface} {q : S.Question} {k : S.Answer q → Dialogue S Nat} {period : Nat}
    {cycle : Dialogue S Unit} : DiesAtOnce (loop (.ask q k) period cycle) ↔ period = 0 := by
  unfold DiesAtOnce loop
  split_ifs with h
  · exact iff_of_true rfl h
  · exact iff_of_false nofun h

end Polling

namespace ChainSettings

variable {settings : ChainSettings}

/-- Nothing in the settings takes a loop down or fails a batch. -/
structure RunsOn (settings : ChainSettings) : Prop where
  dispatcher : 0 < settings.dispatch.blockRate ∧ ¬Polling.DiesAtOnce
    (Polling.loop Dispatch.clock settings.dispatch.blockRate (Dispatch.pollCycle settings.dispatch))
  cache : 0 < settings.cachePollPeriod ∧ ∀ address, ¬Polling.DiesAtOnce
    (Polling.loop (Contract.Cache.ask .now) settings.cachePollPeriod (Contract.Cache.pollCycle address))
  confirmation : 0 < settings.dispatch.confirmRetry.interval ∧ 1 ≤ settings.dispatch.confirmRetry.maxAttempts
  multiplier : settings.dispatch.gasLimitMultiplier.AtLeastOne
  batches : ∀ chainId t e, (Dispatch.sendMsgBatch settings.dispatch).Takes t (.ok (.error e)) →
    (∀ m ∈ t, ∃ before later, Dispatch.Meets chainId m before later) → e.BlamesSettings →
      ∃ reply : Reply Prices, Dispatch.pricing reply ∈ t ∧ reply.outcome = .ok (.error e)

/-! ## What is looked at -/

theorem checked_of_valid (h : settings.fault? = none) :
    1 ≤ settings.maxMsgsPerBatch ∧ settings.gasLimitMultiplier.isBelowOne = false := by
  unfold fault? at h
  repeat' split at h
  all_goals cases h
  exact ⟨Int.not_lt.1 ‹_›, Bool.eq_false_iff.2 ‹_›⟩

theorem ofMillis_pos_iff {millis : Nat} : 0 < Duration.ofMillis millis ↔ 0 < millis :=
  Nat.mul_pos_iff_of_pos_right (by decide)

theorem timely_iff : settings.dispatch.msgTimeout ≤ Dispatch.Settings.longestTimeout ↔
    settings.txMsgTimeoutSecs * 1000 < 2 ^ 63 := by
  change settings.txMsgTimeoutSecs * 1000000000 ≤ (2 ^ 63 - 1) * 1000000 ↔ _
  omega

/-- With a timeout that is too long, the batch that finds a payment fails. -/
theorem timely_of_runsOn (hvalid : settings.fault? = none) (h : settings.RunsOn) :
    settings.dispatch.msgTimeout ≤ Dispatch.Settings.longestTimeout := by
  by_contra htooLong
  obtain ⟨⟨r, htakes⟩, hrecorded, _⟩ := Dispatch.course_of_command "chain" Dispatch.obliging 0 (Dispatch.payments 1)
    (.sendMsgBatch settings.dispatch)
  obtain ⟨o, hbatch⟩ := Dispatch.takes_outcome htakes
  have hpass := hrecorded.passes
  obtain ⟨hlimit, _⟩ := checked_of_valid hvalid
  have hsome : Dispatch.loadable "chain" settings.dispatch (Dispatch.payments 1) ≠ [] := by
    intro hnone
    obtain hroom | hempty := List.take_eq_nil_iff.1 (List.append_eq_nil_iff.1 hnone).2
    · have hroom : settings.maxMsgsPerBatch.toNat = 0 := hroom
      omega
    · revert hempty
      decide +kernel
  obtain ⟨rfl, _, i, hdeeds⟩ := Dispatch.untimely_of_loadable (Nat.not_le.1 htooLong) hlimit rfl hsome hbatch hpass
  obtain ⟨reply, hpricing, _⟩ := h.batches "chain" _ _ hbatch (Dispatch.meets_of_passes hpass) trivial
  have hasked : Dispatch.pricing reply ∈ Dispatch.deeds _ := List.mem_filter.2 ⟨hpricing, rfl⟩
  rw [hdeeds] at hasked
  exact Dispatch.pricing_not_mem Dispatch.groundwork_takenIn hasked

/-- A relay runs on settings with no fault exactly if the cache has a poll period, the gas limit multiplier is a number,
and the timeout of messages is less than 63 bits of milliseconds. -/
theorem runsOn_iff_of_valid (hvalid : settings.fault? = none) : settings.RunsOn ↔ 0 < settings.cachePollPeriodMs ∧
    settings.gasLimitMultiplier.isNaN = false ∧ settings.txMsgTimeoutSecs * 1000 < 2 ^ 63 := by
  obtain ⟨hrate, _, hpoll⟩ := positive_of_valid hvalid
  obtain ⟨hlimit, hbelow⟩ := checked_of_valid hvalid
  constructor
  · intro h
    obtain ⟨hcache, _⟩ := h.cache
    obtain ⟨hnumber, _⟩ := h.multiplier
    exact ⟨ofMillis_pos_iff.1 hcache, hnumber, timely_iff.1 (timely_of_runsOn hvalid h)⟩
  · rintro ⟨hcache, hnumber, htimeout⟩
    have hrate := ofMillis_pos_iff.2 hrate
    have hcache := ofMillis_pos_iff.2 hcache
    exact {
      dispatcher := ⟨hrate, fun hdies => Nat.ne_of_gt hrate (Polling.diesAtOnce_iff.1 hdies)⟩
      cache := ⟨hcache, fun _ hdies => Nat.ne_of_gt hcache (Polling.diesAtOnce_iff.1 hdies)⟩
      confirmation := ⟨ofMillis_pos_iff.2 hpoll, settings.confirmAttempts_pos⟩
      multiplier := (Binary64.isBelowOne_eq_false_iff.1 hbelow).resolve_left (Bool.eq_false_iff.1 hnumber)
      batches := fun chainId t e => Dispatch.exists_pricing_of_blames hlimit (timely_iff.2 htimeout) }

theorem runsOn_of_defaults : (new "testing-1").fault? = none ∧ (new "testing-1").RunsOn := by
  have hvalid : (new "testing-1").fault? = none := by decide +kernel
  exact ⟨hvalid, (runsOn_iff_of_valid hvalid).2 (by decide)⟩

/-- The cache is to be refreshed without a pause. -/
def restlessCache : ChainSettings :=
  { new "testing-1" with cachePollPeriodMs := 0 }

/-- Gas limits are to be multiplied by what is no number. -/
def noMultiplier : ChainSettings :=
  { new "testing-1" with gasLimitMultiplier := ⟨0x7ff8000000000000⟩ }

/-- Messages are to be sent for as many seconds as 64 bits can count. -/
def endlessMessages : ChainSettings :=
  { new "testing-1" with txMsgTimeoutSecs := 2 ^ 64 - 1 }

/-- None of them has a fault, and a relay runs on none of them. -/
theorem not_runsOn_of_unchecked : (restlessCache.fault? = none ∧ ¬restlessCache.RunsOn) ∧
    (noMultiplier.fault? = none ∧ ¬noMultiplier.RunsOn) ∧ endlessMessages.fault? = none ∧ ¬endlessMessages.RunsOn := by
  have hendless : endlessMessages.fault? = none := by decide +kernel
  refine ⟨⟨by decide +kernel, fun h => ?_⟩, ⟨by decide +kernel, fun h => ?_⟩, hendless, fun h => ?_⟩
  · exact absurd h.cache.1 (by decide)
  · exact absurd h.multiplier.1 (by decide)
  · exact absurd (timely_of_runsOn hendless h) (by decide)

end ChainSettings

end ReportRelay
