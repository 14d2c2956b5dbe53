import Mathlib.Algebra.Order.Ring.Nat
import ReportRelay.Dispatch.Confirmation
import ReportRelay.Proofs.Dialogue.Answering
import ReportRelay.Proofs.Dispatch.Step
import ReportRelay.Proofs.Retry
import ReportRelay.Settings.Chain

/-!
# How long a transaction is looked up

As many lookups are made as there are whole periods in the time for which a transaction may wait, with one period less
between the first and the last of them than there are lookups. So when they all fail, a transaction is given up before
its time is over, but not two periods before.
-/

namespace ReportRelay

theorem RetryPolicy.delayFor_of_fixed {policy : RetryPolicy} (h : policy.backoff = .fixed) (attempt : Nat) :
    policy.delayFor attempt = policy.interval := by
  rw [delayFor, h]

theorem Duration.ofMillis_lt_ofMillis {m n : Nat} (h : m < n) : Duration.ofMillis m < Duration.ofMillis n :=
  Nat.mul_lt_mul_of_pos_right h (by decide)

/-! ## The number of lookups -/

namespace ChainSettings

variable {settings : ChainSettings}

/-- Settings with no fault let some milliseconds pass between two lookups, and some blocks before a timeout. -/
theorem positive_of_valid (h : settings.fault? = none) :
    0 < settings.blockRateMs ∧ 1 ≤ settings.blocksUntilTxTimeout ∧ 0 < settings.confirmPollPeriodMs := by
  unfold fault? at h
  repeat' split at h
  all_goals cases h
  omega

/-- For how many milliseconds a transaction may be included. -/
def inclusionMs (settings : ChainSettings) : Nat :=
  settings.blockRateMs * settings.blocksUntilTxTimeout.toNat

/-- That time as far as 64 bits can tell it. -/
def toldMs (settings : ChainSettings) : Nat :=
  min settings.inclusionMs (2 ^ 64 - 1)

theorem confirmWindowMs_of_valid (h : settings.fault? = none) : settings.confirmWindowMs = settings.toldMs := by
  obtain ⟨_, hblocks, _⟩ := positive_of_valid h
  rw [confirmWindowMs, toldMs, inclusionMs, max_eq_left hblocks]

theorem confirmAttempts_of_valid (h : settings.fault? = none) :
    settings.confirmAttempts = max (min (settings.toldMs / settings.confirmPollPeriodMs) (2 ^ 32 - 1)) 1 := by
  obtain ⟨_, _, hperiod⟩ := positive_of_valid h
  have hmax : max settings.confirmPollPeriodMs 1 = settings.confirmPollPeriodMs := max_eq_left hperiod
  rw [confirmAttempts, confirmWindowMs_of_valid h, hmax]

/-- As many lookups as whole periods, if 32 bits can tell how many these are. -/
theorem confirmAttempts_of_lt (h : settings.fault? = none)
    (hcount : settings.toldMs / settings.confirmPollPeriodMs < 2 ^ 32) :
    settings.confirmAttempts = max (settings.toldMs / settings.confirmPollPeriodMs) 1 := by
  have htold : min (settings.toldMs / settings.confirmPollPeriodMs) (2 ^ 32 - 1) =
      settings.toldMs / settings.confirmPollPeriodMs := min_eq_left (by omega)
  rw [confirmAttempts_of_valid h, htold]

theorem confirmAttempts_pos (settings : ChainSettings) : 0 < settings.confirmAttempts :=
  Nat.lt_of_lt_of_le Nat.one_pos (le_max_right _ _)

/-- The periods between the lookups do not fill the time. -/
theorem confirmAttempts_mul_lt (h : settings.fault? = none) :
    (settings.confirmAttempts - 1) * settings.confirmPollPeriodMs < settings.inclusionMs := by
  obtain ⟨hrate, hblocks, hperiod⟩ := positive_of_valid h
  have hpositive : 0 < settings.inclusionMs := Nat.mul_pos hrate (by omega)
  rw [confirmAttempts_of_valid h]
  generalize hfit : settings.toldMs / settings.confirmPollPeriodMs = fit
  have hle : fit * settings.confirmPollPeriodMs ≤ settings.toldMs := by
    rw [← hfit]
    exact Nat.div_mul_le_self _ _
  rcases Nat.eq_zero_or_pos fit with rfl | hfits
  · simpa using hpositive
  · calc (max (min fit (2 ^ 32 - 1)) 1 - 1) * settings.confirmPollPeriodMs
        ≤ (fit - 1) * settings.confirmPollPeriodMs := Nat.mul_le_mul_right _ (by omega)
      _ < fit * settings.confirmPollPeriodMs := Nat.mul_lt_mul_of_pos_right (by omega) hperiod
      _ ≤ settings.toldMs := hle
      _ ≤ settings.inclusionMs := min_le_left _ _

/-- One period more than there are lookups would fill it, as far as it can be told. -/
theorem lt_confirmAttempts_mul (h : settings.fault? = none)
    (hcount : settings.toldMs / settings.confirmPollPeriodMs < 2 ^ 32) :
    settings.toldMs < (settings.confirmAttempts + 1) * settings.confirmPollPeriodMs := by
  obtain ⟨_, _, hperiod⟩ := positive_of_valid h
  rw [confirmAttempts_of_lt h hcount]
  calc settings.toldMs
      < (settings.toldMs / settings.confirmPollPeriodMs + 1) * settings.confirmPollPeriodMs :=
        Nat.lt_mul_of_div_lt (Nat.lt_succ_self _) hperiod
    _ ≤ (max (settings.toldMs / settings.confirmPollPeriodMs) 1 + 1) * settings.confirmPollPeriodMs :=
        Nat.mul_le_mul_right _ (Nat.succ_le_succ (le_max_left _ _))

theorem mul_confirmPollPeriod (settings : ChainSettings) (n : Nat) :
    n * settings.confirmPollPeriod = Duration.ofMillis (n * settings.confirmPollPeriodMs) :=
  (Nat.mul_assoc _ _ _).symm

end ChainSettings

namespace Dispatch

/-! ## The times of lookups -/

variable {behalf : Behalf} {txHash : String} {start finish : Nat} {t : List (Dated interface)}
  {r : Except Crash (Except Error Unit)}

/-- The lookups of a course, each with its time and the reply to it. -/
def lookUpsIn (t : List (Dated interface)) : List (Nat × Reply TxResponse) :=
  t.filterMap fun
    | ⟨time, .client _ (.lookUp _), reply⟩ => some (time, reply)
    | _ => none

theorem lookUpsIn_append (t u : List (Dated interface)) : lookUpsIn (t ++ u) = lookUpsIn t ++ lookUpsIn u :=
  List.filterMap_append

def FailsAtOnce (reply : Reply TxResponse) : Prop :=
  reply.nanos = 0 ∧ ∃ e, reply.outcome = .ok (.error e)

theorem lasts_call {call : ClientCall} {r : Except Crash (Except Error call.Result)} :
    (Dispatch.call behalf call).outcome.Lasts start t finish r ↔
      ∃ reply : Reply call.Result, t = [⟨start, .client behalf call, reply⟩] ∧ finish = start + reply.nanos ∧
        r = reply.outcome := by
  refine Iff.trans (Dialogue.lasts_bind (p := ask (.client behalf call)) (f := Reply.receive)) ?_
  constructor
  · rintro (⟨c, hc, _⟩ | ⟨reply, u, v, middle, rfl, hu, hv⟩)
    · obtain ⟨_, _, _, hc⟩ := Dialogue.lasts_question.1 hc
      cases hc
    · obtain ⟨_, rfl, rfl, hreply⟩ := Dialogue.lasts_question.1 hu
      cases hreply
      obtain ⟨rfl, rfl, rfl⟩ := Attempt.lasts_receive.1 hv
      exact ⟨reply, rfl, rfl, rfl⟩
  · rintro ⟨reply, rfl, rfl, rfl⟩
    refine .inr ⟨reply, _, [], start, rfl, Dialogue.lasts_question.2 ⟨reply, rfl, rfl, rfl⟩, ?_⟩
    exact Attempt.lasts_receive.2 ⟨rfl, rfl, rfl⟩

/-- Lookups that all fail at once are an interval apart, and use up the attempts. -/
theorem times_of_tries {policy : RetryPolicy} {more attempt : Nat} {r : Except Crash (Except Error TxResponse)}
    (hfixed : policy.backoff = .fixed)
    (h : policy.Tries (fun _ => (call behalf (.lookUp txHash)).outcome) more attempt start t finish r)
    (hfails : ∀ look ∈ lookUpsIn t, FailsAtOnce look.2) :
    (lookUpsIn t).map Prod.fst = List.range' start (more + 1) policy.interval ∧ ∃ e, r = .ok (.error e) := by
  induction h with
  | last attempted final =>
    obtain ⟨reply, rfl, rfl, rfl⟩ := lasts_call.1 attempted
    obtain ⟨_, e, he⟩ := hfails _ List.mem_cons_self
    obtain rfl := final.resolve_right fun hnone => hnone e he
    exact ⟨rfl, e, he⟩
  | again attempted rest ih =>
    obtain ⟨reply, rfl, rfl, hreply⟩ := lasts_call.1 attempted
    obtain ⟨⟨hnanos, _⟩, hrest⟩ := List.forall_mem_cons.1 hfails
    obtain ⟨htimes, hend⟩ := ih hrest
    have hnanos : reply.nanos = 0 := hnanos
    rw [hnanos, Nat.add_zero, RetryPolicy.delayFor_of_fixed hfixed] at htimes
    refine ⟨?_, hend⟩
    rw [List.range'_succ, ← htimes]
    rfl

/-! ## Giving up -/

def isLookUp : Question → Bool
  | .client _ (.lookUp _) => true
  | _ => false

theorem asksOnly_update (ids : List MsgId) (state : MsgState) :
    (update ids state).outcome.AsksOnly fun question => isLookUp question = false := by
  refine Dialogue.AsksOnly.bind ?_ fun _ => .question rfl
  exact Dialogue.AsksOnly.bind (.question rfl) fun nanos => .pass nanos

theorem lookUpsIn_eq_nil (h : ∀ m ∈ t, isLookUp m.event.question = false) : lookUpsIn t = [] := by
  refine List.filterMap_eq_nil_iff.2 fun m hm => ?_
  have hm := h m hm
  obtain ⟨time, question, a⟩ := m
  cases question with
  | client behalf call =>
    cases call with
    | lookUp txHash => cases hm
    | account | simulateEach | simulate | latestBlock | createAndSign | broadcast => rfl
  | signer | prices | now | turn | store | storeAll | log => rfl

/-- Behind the last lookup the messages are to become errored. -/
def GivesUp (ids : List MsgId) (t : List (Dated interface)) : Prop :=
  ∃ looks rest, t = looks ++ rest ∧ lookUpsIn rest = [] ∧ ∃ a, moving ids .errored a ∈ rest.map Dated.event

/-- A transaction that no lookup finds is looked up as often as the settings say, and then given up. -/
theorem times_of_confirmTx {settings : Settings} (hfixed : settings.confirmRetry.backoff = .fixed)
    (h : (confirmTx settings behalf txHash).Lasts start t finish r)
    (hfails : ∀ look ∈ lookUpsIn t, FailsAtOnce look.2) :
    (lookUpsIn t).map Prod.fst = List.range' start settings.confirmRetry.attempts settings.confirmRetry.interval ∧
      GivesUp behalf.ids t := by
  have hattempts : settings.confirmRetry.attempts - 1 + 1 = settings.confirmRetry.attempts :=
    Nat.sub_add_cancel (le_max_right _ _)
  rw [confirmTx] at h
  rcases Attempt.lasts_ofDialogue_bind.1 h with ⟨c, hc, _⟩ | ⟨found, u, v, middle, rfl, hu, hv⟩
  · obtain ⟨_, e, he⟩ := times_of_tries hfixed (RetryPolicy.lasts_retry.1 hc) hfails
    cases he
  · rw [lookUpsIn_append] at hfails ⊢
    obtain ⟨htimes, e, he⟩ := times_of_tries hfixed (RetryPolicy.lasts_retry.1 hu) (List.forall_mem_append.1 hfails).1
    cases he
    have hrest : lookUpsIn v = [] := by
      apply lookUpsIn_eq_nil
      refine Dialogue.AsksOnly.of_lasts (S := interface) (P := fun question => isLookUp question = false) ?_ hv
      exact Attempt.asksOnly_bind (Attempt.asksOnly_ofDialogue (.question rfl)) fun _ => asksOnly_update _ _
    obtain ⟨w, hdeeds, hupdate⟩ := takes_log_bind (Dialogue.Lasts.takes hv)
    obtain ⟨a, hmove, _⟩ := takes_update hupdate
    have hmem : moving behalf.ids .errored a ∈ deeds (v.map Dated.event) := by simp [hdeeds, hmove]
    refine ⟨?_, u, v, rfl, hrest, a, List.mem_of_mem_filter hmem⟩
    rw [hrest, List.append_nil, htimes, hattempts]

variable {settings : ChainSettings}

theorem times_of_chain (h : (confirmTx settings.dispatch behalf txHash).Lasts start t finish r)
    (hfails : ∀ look ∈ lookUpsIn t, FailsAtOnce look.2) :
    (lookUpsIn t).map Prod.fst = List.range' start settings.confirmAttempts settings.confirmPollPeriod ∧
      GivesUp behalf.ids t := by
  have hattempts : settings.confirmRetry.attempts = settings.confirmAttempts := max_eq_left (le_max_right _ _)
  have hfixed : settings.dispatch.confirmRetry.backoff = .fixed := rfl
  rw [← hattempts]
  exact times_of_confirmTx hfixed h hfails

/-- A transaction that no lookup finds is looked up once for every whole period in the time in which it may be included,
at least once, a period apart, and then given up. So the last lookup comes before the time is over, but not two periods
before. -/
theorem givenUp_before_timeout (hvalid : settings.fault? = none)
    (hcount : settings.toldMs / settings.confirmPollPeriodMs < 2 ^ 32)
    (h : (confirmTx settings.dispatch behalf txHash).Lasts start t finish r)
    (hfails : ∀ look ∈ lookUpsIn t, FailsAtOnce look.2) :
    (lookUpsIn t).map Prod.fst =
        List.range' start (max (settings.toldMs / settings.confirmPollPeriodMs) 1) settings.confirmPollPeriod ∧
      GivesUp behalf.ids t ∧
      ∃ last, ((lookUpsIn t).map Prod.fst).getLast? = some last ∧
        last < start + Duration.ofMillis settings.inclusionMs ∧
        start + Duration.ofMillis settings.toldMs < last + 2 * settings.confirmPollPeriod := by
  obtain ⟨n, hn⟩ := Nat.exists_eq_add_one.2 settings.confirmAttempts_pos
  have hless := settings.confirmAttempts_mul_lt hvalid
  have hmore := settings.lt_confirmAttempts_mul hvalid hcount
  rw [hn] at hless hmore
  obtain ⟨htimes, hgives⟩ := times_of_chain h hfails
  rw [← settings.confirmAttempts_of_lt hvalid hcount]
  refine ⟨htimes, hgives, start + n * settings.confirmPollPeriod, ?_, ?_, ?_⟩
  · rw [htimes, hn]
    simp [List.range'_concat, Nat.mul_comm]
  · rw [settings.mul_confirmPollPeriod]
    exact Nat.add_lt_add_left (Duration.ofMillis_lt_ofMillis hless) start
  · rw [Nat.add_assoc, ← Nat.add_mul, settings.mul_confirmPollPeriod]
    exact Nat.add_lt_add_left (Duration.ofMillis_lt_ofMillis hmore) start

/-! ## A chain that is polled slowly -/

/-- A world with a clock in which everybody fails at once. -/
def refusing : (question : Question) → Nat → question.Answer × Nat
  | .client _ _, now => (Reply.error .missingTxHash, now)
  | .signer _, now => (Reply.error .missingTxHash, now)
  | .prices, now => (Reply.error .missingTxHash, now)
  | .now, now => ((now : Int), now)
  | .turn, now => ((0 : Nat), now)
  | .store _, now => (.error .missingTxHash, now)
  | .storeAll .., now => (.error .missingTxHash, now)
  | .log _, now => ((), now)

/-- A transaction may be included for three minutes, and is looked up every minute and a half. -/
def slowPolling : ChainSettings :=
  { ChainSettings.new "testing-1" with confirmPollPeriodMs := 90000 }

/-- The course of a confirmation there. -/
def refusedCourse : List (Dated interface) :=
  ((confirmTx slowPolling.dispatch ⟨"sender", [1]⟩ "tx").outcome.trace (fun nanos now => now + nanos) refusing 0).map
    fun step => ⟨step.1, step.2⟩

theorem exists_lasts_refusedCourse :
    ∃ finish r, (confirmTx slowPolling.dispatch ⟨"sender", [1]⟩ "tx").Lasts 0 refusedCourse finish r := by
  have hclock : ∀ (question : Question) (now : Nat), (refusing question now).2 = now := by
    intro question now
    cases question <;> rfl
  have hpass : ∀ nanos now : Nat, id (now + nanos) = id now + nanos := fun _ _ => rfl
  exact ⟨_, _, Dialogue.lasts_trace (S := interface) hpass hclock _ 0⟩

theorem failsAtOnce_of_mem_refusedCourse : ∀ look ∈ lookUpsIn refusedCourse, FailsAtOnce look.2 := by
  intro look hlook
  obtain ⟨m, hm, hlook⟩ := List.mem_filterMap.1 hlook
  obtain ⟨⟨now, ⟨question, a⟩⟩, hstep, rfl⟩ := List.mem_map.1 hm
  have ha : a = (refusing question now).1 := Dialogue.answer_eq_of_mem_trace hstep
  subst ha
  cases question with
  | client behalf call =>
    cases call with
    | lookUp txHash =>
      cases hlook
      exact ⟨rfl, .missingTxHash, rfl⟩
    | account | simulateEach | simulate | latestBlock | createAndSign | broadcast => cases hlook
  | signer | prices | now | turn | store | storeAll | log => cases hlook

theorem givenUp_before_timeout_of_slowPolling : GivesUp [1] refusedCourse ∧
    (lookUpsIn refusedCourse).map Prod.fst = [0, Duration.ofSeconds 90] ∧
    ∃ last, ((lookUpsIn refusedCourse).map Prod.fst).getLast? = some last ∧ last < Duration.ofSeconds 180 ∧
      Duration.ofSeconds 180 < last + Duration.ofSeconds 180 := by
  obtain ⟨finish, r, hlasts⟩ := exists_lasts_refusedCourse
  obtain ⟨htimes, hgives, last, hlast, hless, hmore⟩ :=
    givenUp_before_timeout (by decide +kernel) (by decide) hlasts failsAtOnce_of_mem_refusedCourse
  have hinclusion : 0 + Duration.ofMillis slowPolling.inclusionMs = Duration.ofSeconds 180 := by decide
  have htold : 0 + Duration.ofMillis slowPolling.toldMs = Duration.ofSeconds 180 := by decide
  rw [hinclusion] at hless
  rw [htold] at hmore
  exact ⟨hgives, htimes, last, hlast, hless, hmore⟩

/-- The lookups need not span the time: half of it is still to come after the last of two. -/
theorem not_spans_of_slowPolling : ¬∀ (settings : ChainSettings) (behalf : Behalf) (txHash : String)
    (start finish : Nat) (t : List (Dated interface)) (r : Except Crash (Except Error Unit)),
    settings.fault? = none → settings.toldMs / settings.confirmPollPeriodMs < 2 ^ 32 →
    (confirmTx settings.dispatch behalf txHash).Lasts start t finish r →
    (∀ look ∈ lookUpsIn t, FailsAtOnce look.2) →
    ∃ first last, ((lookUpsIn t).map Prod.fst).head? = some first ∧ ((lookUpsIn t).map Prod.fst).getLast? = some last ∧
      first + Duration.ofMillis settings.inclusionMs ≤ last := by
  intro h
  obtain ⟨finish, r, hlasts⟩ := exists_lasts_refusedCourse
  obtain ⟨first, last, hfirst, hlast, hspans⟩ :=
    h slowPolling _ _ 0 finish _ r (by decide +kernel) (by decide) hlasts failsAtOnce_of_mem_refusedCourse
  have hlooks : List.range' 0 slowPolling.confirmAttempts slowPolling.confirmPollPeriod = [0, Duration.ofSeconds 90] := by
    decide +kernel
  obtain ⟨htimes, _⟩ := times_of_chain hlasts failsAtOnce_of_mem_refusedCourse
  rw [htimes, hlooks] at hfirst hlast
  cases hfirst
  cases hlast
  exact absurd hspans (by decide)

end Dispatch

end ReportRelay
