import ReportRelay.Proofs.Contract.Calls
import ReportRelay.Proofs.Contract.Chronicle
import ReportRelay.Proofs.Contract.Served

/-!
# Refreshes that are overtaken

A cache that is refreshed by calls that overlap may go back in time, but only by a write of a call that was overtaken:
one that had asked before the call whose value it replaces was answered.
-/

namespace ReportRelay.Contract.Cache

open Dialogue

variable {α : Type} {address : String} {call start : Nat} {cache : Cache} {m : Dated interface}
  {es fs : List (Dated interface)} {history before later : List Called}

/-! ## What is cached and where it comes from -/

/-- A value in the cache that is written by refreshes, and the queries whose answers tell it. -/
structure Register (α : Type) where
  value : Cache → Option α
  written : interface.Question → Option α
  queries : List String
  value_after : ∀ cache m, value (cache.after m) = (written m.event.question).or (value cache)

/-- The block of the cached configuration. -/
def blockRegister : Register Nat where
  value cache := cache.config.map CachedConfig.block
  written := blockWritten
  queries := ["latest_config_details"]
  value_after cache m := by
    obtain ⟨time, question, a⟩ := m
    cases question with
    | chain | now | putConfig | putTransmission => rfl
    | renew details => exact block_renew

/-- The epoch and the round of the cached transmission. -/
def stageRegister : Register (ℕ ×ₗ ℕ) where
  value cache := cache.transmission.map fun cached => stageOf cached.transmission
  written question := (transmissionWritten question).map stageOf
  queries := ["latest_transmission_details", "latest_config_digest_and_epoch"]
  value_after cache m := by
    obtain ⟨time, question, a⟩ := m
    cases question with
    | chain | now | putConfig | putTransmission => rfl
    | renew details => exact congrArg _ transmission_renew

/-- The event is a query for the value, asked and answered at these times. -/
def Register.Reads (register : Register α) (address : String) (asked answered : Nat) (m : Dated interface) : Prop :=
  ∃ name ∈ register.queries, ∃ reply : Reply Bytes,
    m = ⟨asked, .chain (stateOf address name), reply⟩ ∧ answered = asked + reply.nanos

/-- The call had asked before another call was answered, whose value it finds in the cache: that call has written the
value since, and was the last to write one. -/
def Overtaken (address : String) (register : Register α) (call : Nat) (before : List Called) : Prop :=
  ∃ (other : Nat) (write : Dated interface) (earlier since : List Called),
    other ≠ call ∧ before = earlier ++ (other, write) :: since ∧ (register.written write.event.question).isSome ∧
    (∀ n ∈ since, register.written n.2.event.question = none) ∧
    ∃ mine theirs asked answered asked' answered',
      (call, mine) ∈ before ∧ register.Reads address asked answered mine ∧
      (other, theirs) ∈ earlier ∧ register.Reads address asked' answered' theirs ∧
      asked < answered' ∧ answered' ≤ write.time

theorem Register.exists_last_write (register : Register α) {a : α}
    (h : register.value (cache.afterAll (before.map Prod.snd)) = some a) :
    (∃ other write earlier since, before = earlier ++ (other, write) :: since ∧
      register.written write.event.question = some a ∧ ∀ n ∈ since, register.written n.2.event.question = none) ∨
    register.value cache = some a ∧ ∀ n ∈ before, register.written n.2.event.question = none := by
  induction before generalizing cache with
  | nil => exact .inr ⟨h, List.forall_mem_nil _⟩
  | cons m before ih =>
    -- The last write is behind the first event, or that event is it, or there is none.
    rcases ih h with ⟨other, write, earlier, since, rfl, hwritten, hsince⟩ | ⟨hvalue, hnone⟩
    · exact .inl ⟨other, write, m :: earlier, since, rfl, hwritten, hsince⟩
    · rw [register.value_after] at hvalue
      cases hwritten : register.written m.2.event.question with
      | none =>
        rw [hwritten] at hvalue
        exact .inr ⟨hvalue, List.forall_mem_cons.2 ⟨hwritten, hnone⟩⟩
      | some b =>
        rw [hwritten] at hvalue
        cases hvalue
        exact .inl ⟨m.1, m.2, [], before, rfl, hwritten, hnone⟩

/-! ## What is written was read -/

/-- What a call writes it may have read, in answers that tell the truth, and it writes no value before that. -/
structure Register.Faithful [LT α] (register : Register α) (address : String) (tells : Dated interface → Prop)
    (seen : (Nat → Nat → Prop) → α → Prop) : Prop extends Sampled seen where
  seen_of_written : ∀ {start : Nat} {es : List (Dated interface)} {m : Dated interface} {fs : List (Dated interface)}
    {a : α}, (Cache.refresh address).outcome.LastsSoFar start (es ++ m :: fs) → (∀ n ∈ es, tells n) →
      register.written m.event.question = some a →
        seen (fun asked answered => answered ≤ m.time ∧ ∃ n ∈ es, register.Reads address asked answered n) a ∧
          ∀ n ∈ es, register.written n.event.question = none

theorem faithful_block (chronicle : Chronicle) :
    blockRegister.Faithful address (chronicle.Tells address) (BlockSeen chronicle) where
  toSampled := sampled_block chronicle
  seen_of_written begun told hm := by
    obtain ⟨reply, details, hread, said, rfl, hle, hnone⟩ := exists_reported_of_blockWritten begun hm
    refine ⟨⟨_, _, ⟨hle, _, hread, ?_⟩, (told _ hread).details _ reply details rfl said⟩, hnone⟩
    exact ⟨_, List.mem_singleton_self _, reply, rfl, rfl⟩

theorem faithful_stage (chronicle : Chronicle) :
    stageRegister.Faithful address (chronicle.Tells address) (StageSeen chronicle) where
  toSampled := sampled_stage chronicle
  seen_of_written {start es m fs a} begun told hm := by
    obtain ⟨transmission, hwritten, rfl⟩ := Option.map_eq_some_iff.1 hm
    obtain ⟨t, hasked, hread, hnone⟩ := exists_read_of_transmissionWritten begun hwritten
    refine ⟨?_, fun n hn => Option.map_eq_none_iff.2 (hnone n hn)⟩
    generalize m.time = finish at hread
    cases hread with
    | @recorded reply record _ said made =>
      have hmem := hasked _ (List.mem_singleton_self _)
      rw [stage_of_record made]
      refine .recorded ⟨Nat.le_refl _, _, hmem, ?_⟩ ((told _ hmem).recorded _ reply record rfl said)
      exact ⟨_, List.mem_cons_self, reply, rfl, rfl⟩
    | @untransmitted first second e current logs said missing epoch logged =>
      have hfirst := hasked _ List.mem_cons_self
      have hsecond := hasked _ (List.mem_cons_of_mem _ List.mem_cons_self)
      refine .untransmitted ⟨Nat.le_add_right _ _, _, hfirst, ?_⟩ ((told _ hfirst).missing _ first e rfl said missing)
        ⟨Nat.le_refl _, _, hsecond, ?_⟩ ((told _ hsecond).epoch _ second current rfl epoch)
      · exact ⟨_, List.mem_cons_self, first, rfl, rfl⟩
      · exact ⟨_, List.mem_cons_of_mem _ List.mem_cons_self, second, rfl, rfl⟩

/-! ## What goes back -/

/-- The value after what has been done to an empty cache. -/
def Register.heldAfter (register : Register α) (history : List Called) : Option α :=
  register.value (Cache.empty.afterAll (history.map Prod.snd))

theorem Register.heldAfter_concat {register : Register α} :
    register.heldAfter (before ++ [(call, m)]) =
      (register.written m.event.question).or (register.heldAfter before) := by
  unfold heldAfter
  rw [List.map_append, afterAll_append]
  exact register.value_after _ m

/-- What there was is still there, or something that is not smaller. -/
def KeepsUp [LE α] (value value' : Option α) : Prop :=
  ∀ a, value = some a → ∃ b, value' = some b ∧ a ≤ b

theorem KeepsUp.refl [Preorder α] (value : Option α) : KeepsUp value value :=
  fun a h => ⟨a, h, le_refl a⟩

theorem KeepsUp.trans [Preorder α] {first second third : Option α} (h : KeepsUp first second)
    (h' : KeepsUp second third) : KeepsUp first third := by
  intro a ha
  obtain ⟨b, hb, hab⟩ := h a ha
  obtain ⟨c, hc, hbc⟩ := h' b hb
  exact ⟨c, hc, le_trans hab hbc⟩

/-- The value goes back at no step that is not a write of a call that was overtaken. -/
def Register.GoesBackOnlyIfOvertaken [LE α] (register : Register α) (address : String) (history : List Called) : Prop :=
  ∀ before call m later, history = before ++ (call, m) :: later →
    ¬((register.written m.event.question).isSome ∧ Overtaken address register call before) →
      KeepsUp (register.heldAfter before) (register.heldAfter (before ++ [(call, m)]))

/-- The value goes back over no part of the history. -/
def Register.NeverGoesBack [LE α] (register : Register α) (history : List Called) : Prop :=
  ∀ before between after, history = before ++ between ++ after →
    KeepsUp (register.heldAfter before) (register.heldAfter (before ++ between))

theorem Register.GoesBackOnlyIfOvertaken.neverGoesBack [Preorder α] {register : Register α}
    (steps : register.GoesBackOnlyIfOvertaken address history)
    (hnot : ∀ before call m later, history = before ++ (call, m) :: later → ¬Overtaken address register call before) :
    register.NeverGoesBack history := by
  intro before between after h
  induction between generalizing before with
  | nil =>
    rw [List.append_nil]
    exact .refl _
  | cons event between ih =>
    have hstep : history = before ++ event :: (between ++ after) := h.trans (List.append_assoc _ _ _)
    have hrest : before ++ event :: between = before ++ [event] ++ between := List.append_cons _ _ _
    rw [hrest] at h ⊢
    exact (steps before _ _ _ hstep fun hwrite => hnot before _ _ _ hstep hwrite.2).trans (ih _ h)

theorem Overlapping.begun_of_split {event : Dated interface} (calls : Overlapping address cache history)
    (h : history = before ++ (call, event) :: later) : ∃ start,
      (Cache.refresh address).outcome.LastsSoFar start (eventsOf call before ++ event :: eventsOf call later) := by
  obtain ⟨start, hbegun⟩ := calls.begun call
  have hevents : eventsOf call ((call, event) :: later) = event :: eventsOf call later :=
    List.filterMap_cons_some (if_pos rfl)
  rw [h, eventsOf_append, hevents] at hbegun
  exact ⟨start, hbegun⟩

/-- A call that writes a smaller value than it finds was overtaken. -/
theorem overtaken_of_lt [LT α] {register : Register α} {seen : (Nat → Nat → Prop) → α → Prop}
    {tells : Dated interface → Prop} {a b : α} (faithful : register.Faithful address tells seen)
    (calls : Overlapping address .empty history) (told : ∀ n ∈ history, tells n.2)
    (empty : register.value .empty = none) (h : history = before ++ (call, m) :: later)
    (hm : register.written m.event.question = some a) (hb : register.heldAfter before = some b) (hlt : a < b) :
    Overtaken address register call before := by
  have toldIn {other : Nat} {part rest : List Called} (hpart : history = part ++ rest) :
      ∀ n ∈ eventsOf other part, tells n := by
    intro n hn
    refine told (other, n) ?_
    rw [hpart]
    exact List.mem_append_left rest (mem_eventsOf.1 hn)
  rcases register.exists_last_write hb with ⟨other, write, earlier, since, rfl, hwrite, hsince⟩ | ⟨hnone, _⟩
  · have hearlier : history = earlier ++ (other, write) :: (since ++ (call, m) :: later) :=
      h.trans (List.append_assoc _ _ _)
    obtain ⟨start, hbegun⟩ := calls.begun_of_split h
    obtain ⟨start', hbegun'⟩ := calls.begun_of_split hearlier
    obtain ⟨hseen, hnone⟩ := faithful.seen_of_written hbegun (toldIn h) hm
    obtain ⟨hseen', _⟩ := faithful.seen_of_written hbegun' (toldIn hearlier) hwrite
    obtain ⟨asked, answered, asked', answered', ⟨_, mine, hmine, hreads⟩, ⟨hle, theirs, htheirs, hreads'⟩, hbefore⟩ :=
      faithful.before_of_lt hseen hseen' hlt
    -- A call writes the value once at most, so the last one to write it was another.
    have hne : other ≠ call := by
      rintro rfl
      have hunwritten := hnone write (mem_eventsOf.2 (List.mem_append_right _ List.mem_cons_self))
      rw [hwrite] at hunwritten
      cases hunwritten
    have hsome : (register.written write.event.question).isSome := by
      rw [hwrite]
      rfl
    exact ⟨other, write, earlier, since, hne, rfl, hsome, hsince, mine, theirs, asked, answered, asked', answered',
      mem_eventsOf.1 hmine, hreads, mem_eventsOf.1 htheirs, hreads', hbefore, hle⟩
  · cases empty.symm.trans hnone

theorem goesBackOnlyIfOvertaken_of_faithful [LinearOrder α] {register : Register α}
    {seen : (Nat → Nat → Prop) → α → Prop} {tells : Dated interface → Prop}
    (faithful : register.Faithful address tells seen) (calls : Overlapping address .empty history)
    (told : ∀ n ∈ history, tells n.2) (empty : register.value .empty = none) :
    register.GoesBackOnlyIfOvertaken address history := by
  intro before call m later h hnot b hb
  rw [Register.heldAfter_concat]
  cases hm : register.written m.event.question with
  | none => exact ⟨b, hb, le_refl b⟩
  | some a =>
    refine ⟨a, rfl, le_of_not_gt fun hlt => hnot ⟨?_, overtaken_of_lt faithful calls told empty h hm hb hlt⟩⟩
    rw [hm]
    rfl

/-- No call does anything between two things that another one does. -/
def OneAtATime (history : List Called) : Prop :=
  ∀ (call other : Nat) (m n o : Dated interface) (first second third fourth : List Called),
    history = first ++ (call, m) :: second ++ (other, n) :: third ++ (call, o) :: fourth → other = call

theorem not_overtaken_of_oneAtATime {register : Register α} (sorted : history.Pairwise fun m n => m.2.time ≤ n.2.time)
    (apart : OneAtATime history) (h : history = before ++ (call, m) :: later) :
    ¬Overtaken address register call before := by
  rintro ⟨other, write, earlier, since, hne, rfl, _, _, mine, theirs, asked, answered, asked', answered', hmine, hreads,
    _, _, hbefore, hle⟩
  obtain ⟨_, _, _, rfl, _⟩ := hreads
  -- What the call asked stands before the other one's write, which then comes between it and the call's own write, or
  -- behind it, and then the question comes later than the answer that it should have come before.
  rcases List.mem_append.1 hmine with hmine | hmine
  · obtain ⟨first, second, rfl⟩ := List.append_of_mem hmine
    exact hne (apart call other _ write m first second since later h)
  · rcases List.mem_cons.1 hmine with heq | hmine
    · cases heq
      exact hne rfl
    · rw [h, List.append_assoc] at sorted
      have hwrite := (List.pairwise_cons.1 (List.pairwise_append.1 sorted).2.1).1 _ (List.mem_append_left _ hmine)
      exact Nat.lt_irrefl _ (Nat.lt_of_le_of_lt hwrite (Nat.lt_of_lt_of_le hbefore hle))

/-- While refreshes overlap, what is cached goes back only by writes of calls that were overtaken, and while they do not
overlap, it never does. -/
theorem goes_back_only_if_overtaken {chronicle : Chronicle} (calls : Overlapping address .empty history)
    (told : ∀ n ∈ history, chronicle.Tells address n.2) :
    (blockRegister.GoesBackOnlyIfOvertaken address history ∧ stageRegister.GoesBackOnlyIfOvertaken address history) ∧
      (OneAtATime history → blockRegister.NeverGoesBack history ∧ stageRegister.NeverGoesBack history) := by
  have hblock : blockRegister.GoesBackOnlyIfOvertaken address history :=
    goesBackOnlyIfOvertaken_of_faithful (faithful_block chronicle) calls told rfl
  have hstage : stageRegister.GoesBackOnlyIfOvertaken address history :=
    goesBackOnlyIfOvertaken_of_faithful (faithful_stage chronicle) calls told rfl
  refine ⟨⟨hblock, hstage⟩, fun apart => ⟨hblock.neverGoesBack ?_, hstage.neverGoesBack ?_⟩⟩
  · exact fun _ _ _ _ h => not_overtaken_of_oneAtATime calls.sorted apart h
  · exact fun _ _ _ _ h => not_overtaken_of_oneAtATime calls.sorted apart h

/-! ## A slow call and a fast one -/

/-- One thing at the first moment and another one from then on. -/
def fromFirst {γ : Type} (first later : γ) (time : Nat) : γ :=
  if time = 0 then first else later

theorem monotone_fromFirst [Preorder α] {first later : α} (h : first ≤ later) : Monotone (fromFirst first later) := by
  intro s t hle
  unfold fromFirst
  split
  next =>
    split
    next => exact le_refl first
    next => exact h
  next hs => rw [if_neg (by omega)]

/-- Right after the first moment the contract comes to its next configuration and its next epoch. Whoever asks at the
first moment waits long for the answer. -/
def overtakingScript : Script :=
  contractScript (fromFirst ⟨10, .ok (.ok (sampleDetails 1))⟩ (.ok (sampleDetails 2)))
    (fromFirst ⟨10, .ok (.ok (sampleRecord 1))⟩ (.ok (sampleRecord 2))) fun _ => .ok [sampleTx [zeroHex]]

def overtakingChronicle : Chronicle where
  block := fromFirst 1 2
  stage := fromFirst (toLex (1, 0)) (toLex (2, 0))
  transmitted _ := True
  block_monotone := monotone_fromFirst (Nat.le_succ 1)
  stage_monotone := monotone_fromFirst (Prod.Lex.toLex_le_toLex.2 (.inl (Nat.lt_succ_self 1)))
  transmitted_monotone _ _ _ := le_refl True

def slowCall : List (Dated interface) :=
  historyBy overtakingScript (Cache.refresh "contract").outcome 0 .empty

def fastCall : List (Dated interface) :=
  historyBy overtakingScript (Cache.refresh "contract").outcome 1 .empty

/-- The fast call is made while the slow one waits for its answers. -/
def overtakingHistory : List Called :=
  (slowCall.take 2).map (0, ·) ++ fastCall.map (1, ·) ++ (slowCall.drop 2).map (0, ·)

set_option maxRecDepth 10000 in
theorem overlapping_overtakingHistory : Overlapping "contract" .empty overtakingHistory where
  begun call := by
    unfold overtakingHistory
    rw [eventsOf_append, eventsOf_append]
    match call with
    | 0 =>
      rw [eventsOf_map, eventsOf_map, eventsOf_map_of_ne (by decide), List.append_nil, List.take_append_drop]
      exact ⟨0, lasts_historyBy.soFar⟩
    | 1 =>
      rw [eventsOf_map, eventsOf_map_of_ne (by decide), eventsOf_map_of_ne (by decide), List.append_nil]
      exact ⟨1, lasts_historyBy.soFar⟩
    | call + 2 =>
      rw [eventsOf_map_of_ne (by omega), eventsOf_map_of_ne (by omega), eventsOf_map_of_ne (by omega)]
      obtain ⟨t, finish, r, hlasts⟩ := exists_lasts nonempty_answer (Cache.refresh "contract").outcome 0
      exact ⟨0, t, finish, r, hlasts⟩
  sorted := by decide +kernel
  consistent := by decide +kernel

set_option maxRecDepth 10000 in
theorem comesTo_overtakingDetails (time : Nat) :
    (fromFirst ⟨10, .ok (.ok (sampleDetails 1))⟩ (.ok (sampleDetails 2)) time : Reply Bytes).comesTo detailsIn =
      .ok (.ok ⟨fromFirst 1 2 time, .zero⟩) := by
  cases time with
  | zero => exact comesTo_sampleDetails
  | succ time =>
    have hlater : (Reply.ok (sampleDetails 2) : Reply Bytes).comesTo detailsIn = .ok (.ok ⟨2, .zero⟩) := by
      decide +kernel
    exact hlater

set_option maxRecDepth 10000 in
theorem comesTo_overtakingRecord (time : Nat) :
    (fromFirst ⟨10, .ok (.ok (sampleRecord 1))⟩ (.ok (sampleRecord 2)) time : Reply Bytes).comesTo recordIn =
      .ok (.ok ⟨.zero, fromFirst 1 2 time, 0, "0", 0⟩) := by
  cases time with
  | zero =>
    have hfirst : (Reply.ok (sampleRecord 1) : Reply Bytes).comesTo recordIn = .ok (.ok ⟨.zero, 1, 0, "0", 0⟩) := by
      decide +kernel
    exact hfirst
  | succ time =>
    have hlater : (Reply.ok (sampleRecord 2) : Reply Bytes).comesTo recordIn = .ok (.ok ⟨.zero, 2, 0, "0", 0⟩) := by
      decide +kernel
    exact hlater

set_option maxRecDepth 10000 in
/-- The record of a transmission cannot be read as the epoch of a configuration. -/
theorem comesTo_overtakingRecord_ne {time : Nat} {current : DigestAndEpoch} :
    (fromFirst ⟨10, .ok (.ok (sampleRecord 1))⟩ (.ok (sampleRecord 2)) time : Reply Bytes).comesTo digestAndEpochIn ≠
      .ok (.ok current) := by
  have hfirst : ((digestAndEpochIn (sampleRecord 1)).toBool) = false := by decide +kernel
  have hlater : ((digestAndEpochIn (sampleRecord 2)).toBool) = false := by decide +kernel
  intro h
  obtain ⟨_, hbytes, hread⟩ := Reply.comesTo_eq_ok_iff.1 h
  cases time with
  | zero =>
    cases hbytes
    rw [hread] at hfirst
    cases hfirst
  | succ time =>
    cases hbytes
    rw [hread] at hlater
    cases hlater

theorem tells_of_overtakingScript {p : Run α} (h : m ∈ historyBy overtakingScript p start cache) :
    overtakingChronicle.Tells address m where
  details time reply details hm said := by
    have hreply := details_of_contractScript (mem_chainEvents.2 (hm ▸ h))
    rw [hreply, comesTo_overtakingDetails] at said
    cases said
    exact ⟨time, Nat.le_refl _, Nat.le_add_right _ _, rfl⟩
  recorded time reply record hm said := by
    have hreply := record_of_contractScript (by decide) (mem_chainEvents.2 (hm ▸ h))
    rw [hreply, comesTo_overtakingRecord] at said
    cases said
    refine ⟨time, Nat.le_refl _, Nat.le_add_right _ _, trivial, ?_⟩
    cases time <;> rfl
  missing time reply e hm said := by
    have hreply := record_of_contractScript (by decide) (mem_chainEvents.2 (hm ▸ h))
    rw [hreply, comesTo_overtakingRecord] at said
    cases said
  epoch time reply current hm said := by
    have hreply := record_of_contractScript (by decide) (mem_chainEvents.2 (hm ▸ h))
    rw [hreply] at said
    exact absurd said comesTo_overtakingRecord_ne

theorem told_overtakingHistory : ∀ n ∈ overtakingHistory, overtakingChronicle.Tells "contract" n.2 := by
  refine List.forall_mem_append.2 ⟨List.forall_mem_append.2 ⟨?_, ?_⟩, ?_⟩
  · exact List.forall_mem_map.2 fun n hn => tells_of_overtakingScript (List.mem_of_mem_take hn)
  · exact List.forall_mem_map.2 fun n hn => tells_of_overtakingScript hn
  · exact List.forall_mem_map.2 fun n hn => tells_of_overtakingScript (List.mem_of_mem_drop hn)

theorem goes_back_only_if_overtaken_of_sample :
    Overlapping "contract" .empty overtakingHistory ∧
      (∀ n ∈ overtakingHistory, overtakingChronicle.Tells "contract" n.2) ∧
      (blockRegister.GoesBackOnlyIfOvertaken "contract" overtakingHistory ∧
        stageRegister.GoesBackOnlyIfOvertaken "contract" overtakingHistory) ∧
      (OneAtATime overtakingHistory →
        blockRegister.NeverGoesBack overtakingHistory ∧ stageRegister.NeverGoesBack overtakingHistory) :=
  ⟨overlapping_overtakingHistory, told_overtakingHistory,
    goes_back_only_if_overtaken overlapping_overtakingHistory told_overtakingHistory⟩

theorem not_neverGoesBack_of_lt [LinearOrder α] {register : Register α} {before later : List Called} {a b : α}
    (hb : register.heldAfter before = some b) (ha : register.heldAfter (before ++ later) = some a) (hlt : a < b) :
    ¬register.NeverGoesBack (before ++ later) := by
  intro never
  obtain ⟨a', ha', hle⟩ := never before later [] (List.append_nil _).symm b hb
  cases ha.symm.trans ha'
  exact absurd hle (not_le_of_gt hlt)

set_option maxRecDepth 10000 in
theorem not_neverGoesBack_of_overtaken :
    (¬∀ (history : List Called) (chronicle : Chronicle), Overlapping "contract" .empty history →
      (∀ n ∈ history, chronicle.Tells "contract" n.2) → blockRegister.NeverGoesBack history) ∧
    ¬∀ (history : List Called) (chronicle : Chronicle), Overlapping "contract" .empty history →
      (∀ n ∈ history, chronicle.Tells "contract" n.2) → stageRegister.NeverGoesBack history := by
  constructor
  · intro h
    refine not_neverGoesBack_of_lt (a := 1) (b := 2) ?_ ?_ (by decide)
      (h _ _ overlapping_overtakingHistory told_overtakingHistory)
    · decide +kernel
    · decide +kernel
  · intro h
    refine not_neverGoesBack_of_lt (a := toLex (1, 0)) (b := toLex (2, 0)) ?_ ?_ (by decide)
      (h _ _ overlapping_overtakingHistory told_overtakingHistory)
    · decide +kernel
    · decide +kernel

end ReportRelay.Contract.Cache
