import ReportRelay.Proofs.Dispatch.SenderCourse

/-!
# What becomes of one sender's messages

A sender's course moves no messages but its own. It broadcasts at most once, and unless the client takes the
dispatcher down, every way out after a broadcast leaves the messages where they are never sent again.
-/

namespace ReportRelay.Dispatch

variable {chainId : String} {s s' : Store} {settings : Settings} {gasPrice : DecCoin}
  {batch : SenderBatch} {es : List (Event interface)} {r : Except Crash (Except Error Unit)}

/-- On whose behalf a transaction is broadcast. -/
def sent? : Event interface → Option Behalf
  | ⟨.client behalf (.broadcast _), _⟩ => some behalf
  | _ => none

def isBroadcast (e : Event interface) : Bool :=
  (sent? e).isSome

/-! ## The events of a course -/

/-- What may happen to a sender's messages before they are broadcast. -/
inductive PlainEvent (behalf : Behalf) : Event interface → Prop
  | call {call : ClientCall} {reply : Reply call.Result}
    (other : isBroadcast (called behalf call reply) = false) : PlainEvent behalf (called behalf call reply)
  | errored {ids : List MsgId} {a : Except Error Unit} (own : ∀ id ∈ ids, id ∈ behalf.ids) :
    PlainEvent behalf (moving ids .errored a)

/-- All that one sender's course consists of. -/
inductive SenderEvent (behalf : Behalf) : Event interface → Prop
  | plain {e : Event interface} (plain : PlainEvent behalf e) : SenderEvent behalf e
  | broadcast {tx : Bytes} {reply : Reply BroadcastResponse} :
    SenderEvent behalf (called behalf (.broadcast tx) reply)
  | broadcasted {txHash : String} {a : Except Error Unit} :
    SenderEvent behalf (movingAll behalf.ids .broadcasted txHash a)
  | confirmed {a : Except Error Unit} : SenderEvent behalf (moving behalf.ids .confirmed a)

variable {behalf : Behalf}

theorem PlainEvent.names {e : Event interface} (h : PlainEvent behalf e) : Names (· ∈ behalf.ids) e := by
  cases h with
  | call => trivial
  | errored own => exact own

theorem PlainEvent.not_isBroadcast {e : Event interface} (h : PlainEvent behalf e) :
    isBroadcast e = false := by
  cases h with
  | call other => exact other
  | errored => rfl

theorem SenderEvent.names {e : Event interface} (h : SenderEvent behalf e) :
    Names (· ∈ behalf.ids) e := by
  cases h with
  | plain plain => exact plain.names
  | broadcast => trivial
  | broadcasted | confirmed => exact fun _ => id

theorem SenderEvent.eq_of_sent? {e : Event interface} {other : Behalf} (h : SenderEvent behalf e)
    (hsent : sent? e = some other) : other = behalf := by
  cases h with
  | plain plain =>
    have hnone := plain.not_isBroadcast
    rw [isBroadcast, hsent] at hnone
    cases hnone
  | broadcast =>
    cases hsent
    rfl
  | broadcasted | confirmed => cases hsent

theorem Abandons.plain (behalf : Behalf) {failure : Failure} (h : Abandons behalf.ids failure es r) :
    ∀ e ∈ es, PlainEvent behalf e := by
  cases h with
  | crashed => exact List.forall_mem_nil _
  | failed => exact List.forall_mem_singleton.2 (.errored fun _ => id)

theorem Cancels.plain (behalf : Behalf) {failed cancelled : List MsgId} (h : Cancels failed cancelled es r)
    (hfailed : ∀ id ∈ failed, id ∈ behalf.ids) (hcancelled : ∀ id ∈ cancelled, id ∈ behalf.ids) :
    ∀ e ∈ es, PlainEvent behalf e := by
  cases h with
  | stuck | alone => exact List.forall_mem_singleton.2 (.errored hfailed)
  | both => exact List.forall_mem_cons.2 ⟨.errored hfailed, List.forall_mem_singleton.2 (.errored hcancelled)⟩

theorem Signs.called {tx : UnsignedTx} {bytes : Bytes} (h : Signs settings gasPrice batch es tx bytes) :
    ∀ e ∈ es, ∃ call reply, e = called batch.behalf call reply ∧ isBroadcast e = false := by
  cases h
  simp only [List.forall_mem_cons]
  exact ⟨⟨_, _, rfl, rfl⟩, ⟨_, _, rfl, rfl⟩, ⟨_, _, rfl, rfl⟩, ⟨_, _, rfl, rfl⟩, ⟨_, _, rfl, rfl⟩,
    List.forall_mem_nil _⟩

theorem Signs.plain {tx : UnsignedTx} {bytes : Bytes} (h : Signs settings gasPrice batch es tx bytes) :
    ∀ e ∈ es, PlainEvent batch.behalf e := by
  intro e he
  obtain ⟨call, reply, rfl, hother⟩ := h.called e he
  exact .call hother

theorem Broadcasts.event {tx : Bytes} {o : Except Crash (Except Error String)}
    (h : Broadcasts behalf tx es o) : ∀ e ∈ es, SenderEvent behalf e := by
  cases h with
  | failed | rejected => exact List.forall_mem_singleton.2 .broadcast
  | unrecorded | recorded =>
    exact List.forall_mem_cons.2 ⟨.broadcast, List.forall_mem_singleton.2 .broadcasted⟩

theorem Broadcasts.countP {tx : Bytes} {o : Except Crash (Except Error String)}
    (h : Broadcasts behalf tx es o) : es.countP isBroadcast = 1 := by
  cases h <;> rfl

theorem ConfirmCourse.plain_or_confirmed {txHash : String}
    (h : ConfirmCourse settings behalf txHash es r) :
    ∀ e ∈ es, PlainEvent behalf e ∨ ∃ a, e = moving behalf.ids .confirmed a := by
  obtain ⟨_, hconcludes⟩ := h
  intro e he
  rcases List.mem_append.1 he with he | he
  · obtain ⟨reply, _, rfl⟩ := List.mem_map.1 he
    exact .inl (.call rfl)
  · cases hconcludes with
    | crashed => cases he
    | @confirmed _ a =>
      obtain rfl := List.mem_singleton.1 he
      exact .inr ⟨a, rfl⟩
    | failed | unknown =>
      obtain rfl := List.mem_singleton.1 he
      exact .inl (.errored fun _ => id)

theorem ConfirmCourse.event {txHash : String} (h : ConfirmCourse settings behalf txHash es r) :
    ∀ e ∈ es, SenderEvent behalf e := by
  intro e he
  rcases h.plain_or_confirmed e he with hplain | ⟨a, rfl⟩
  · exact .plain hplain
  · exact .confirmed

theorem ConfirmCourse.not_isBroadcast {txHash : String}
    (h : ConfirmCourse settings behalf txHash es r) : ∀ e ∈ es, isBroadcast e = false := by
  intro e he
  rcases h.plain_or_confirmed e he with hplain | ⟨a, rfl⟩
  · exact hplain.not_isBroadcast
  · rfl

theorem Unsent.plain (h : Unsent settings gasPrice batch es r) : ∀ e ∈ es, PlainEvent batch.behalf e := by
  cases h with
  | noAccount => exact List.forall_mem_singleton.2 (.call rfl)
  | notSimulated => exact List.forall_mem_cons.2 ⟨.call rfl, List.forall_mem_singleton.2 (.call rfl)⟩
  | cancelled _ _ _ cancels =>
    have hcancels := cancels.plain batch.behalf (fun id hid => (List.mem_filter.1 hid).1)
      fun id hid => (List.mem_filter.1 hid).1
    exact List.forall_mem_cons.2 ⟨.call rfl, List.forall_mem_cons.2 ⟨.call rfl, hcancels⟩⟩
  | notEstimated _ _ _ _ abandons =>
    simp only [List.forall_mem_cons]
    exact ⟨.call rfl, .call rfl, .call rfl, abandons.plain batch.behalf⟩
  | noHeight =>
    simp only [List.forall_mem_cons]
    exact ⟨.call rfl, .call rfl, .call rfl, .call rfl, List.forall_mem_nil _⟩
  | notSigned _ _ _ _ _ _ abandons =>
    simp only [List.forall_mem_cons]
    exact ⟨.call rfl, .call rfl, .call rfl, .call rfl, .call rfl, abandons.plain batch.behalf⟩

theorem SenderCourse.event (h : SenderCourse settings gasPrice batch es r) :
    ∀ e ∈ es, SenderEvent batch.behalf e := by
  cases h with
  | unsent unsent => exact fun e he => .plain (unsent.plain e he)
  | refused signs broadcasts abandons =>
    refine List.forall_mem_append.2 ⟨fun e he => .plain (signs.plain e he), ?_⟩
    exact List.forall_mem_append.2 ⟨broadcasts.event,
      fun e he => .plain (abandons.plain batch.behalf e he)⟩
  | sent signs broadcasts confirms =>
    refine List.forall_mem_append.2 ⟨fun e he => .plain (signs.plain e he), ?_⟩
    exact List.forall_mem_append.2 ⟨broadcasts.event, confirms.event⟩

theorem countP_isBroadcast_eq_zero (h : ∀ e ∈ es, isBroadcast e = false) : es.countP isBroadcast = 0 :=
  List.countP_eq_zero.2 fun e he => by simp [h e he]

theorem countP_isBroadcast_of_signs {fs gs : List (Event interface)} {tx : UnsignedTx} {bytes : Bytes}
    {o : Except Crash (Except Error String)} (signs : Signs settings gasPrice batch es tx bytes)
    (broadcasts : Broadcasts batch.behalf bytes fs o) (after : ∀ e ∈ gs, isBroadcast e = false) :
    (es ++ (fs ++ gs)).countP isBroadcast = 1 := by
  have hsigns := countP_isBroadcast_eq_zero fun e he => (signs.plain e he).not_isBroadcast
  rw [List.countP_append, List.countP_append, hsigns, broadcasts.countP, countP_isBroadcast_eq_zero after]

/-- One sender's course broadcasts at most once. -/
theorem SenderCourse.countP_isBroadcast_le (h : SenderCourse settings gasPrice batch es r) :
    es.countP isBroadcast ≤ 1 := by
  cases h with
  | unsent unsent =>
    have hzero := countP_isBroadcast_eq_zero fun e he => (unsent.plain e he).not_isBroadcast
    exact Nat.le_trans (Nat.le_of_eq hzero) (Nat.zero_le 1)
  | refused signs broadcasts abandons =>
    exact Nat.le_of_eq (countP_isBroadcast_of_signs signs broadcasts fun e he =>
      (abandons.plain batch.behalf e he).not_isBroadcast)
  | sent signs broadcasts confirms =>
    exact Nat.le_of_eq (countP_isBroadcast_of_signs signs broadcasts confirms.not_isBroadcast)

/-! ## Crashes -/

theorem ConfirmCourse.exists_crash {behalf : Behalf} {txHash : String} {c : Crash}
    (h : ConfirmCourse settings behalf txHash es (.error c)) : ∃ e ∈ es, ¬CalmEvent e := by
  obtain ⟨htried, hconcludes⟩ := h
  cases hconcludes
  obtain ⟨reply, hreply, houtcome⟩ := htried.exists_reply
  refine ⟨called behalf (.lookUp txHash) reply, ?_, fun calm => calm c houtcome⟩
  exact List.mem_append_left _ (List.mem_map_of_mem hreply)

theorem Failure.eq_crash {α : Type} {failure : Failure} {c : Crash}
    (h : (failure.result : Except Crash (Except Error α)) = .error c) : failure = .crash c := by
  cases failure with
  | crash reason => cases h; rfl
  | error e => cases h

theorem Abandons.eq_crash {ids : List MsgId} {failure : Failure} {c : Crash}
    (h : Abandons ids failure es (.error c)) : failure = .crash c := by
  cases h
  rfl

theorem not_calmEvent {behalf : Behalf} {call : ClientCall} {reply : Reply call.Result} {c : Crash}
    (h : reply.outcome = (Failure.crash c).result) : ¬CalmEvent (called behalf call reply) :=
  fun calm => calm c h

theorem Broadcasts.exists_crash {behalf : Behalf} {tx : Bytes} {c : Crash}
    (h : Broadcasts behalf tx es (.error c)) : ∃ e ∈ es, ¬CalmEvent e := by
  generalize ho : (.error c : Except Crash (Except Error String)) = o at h
  cases h with
  | @failed reply failure failed =>
    obtain rfl := Failure.eq_crash ho.symm
    exact ⟨_, List.mem_cons_self, not_calmEvent failed⟩
  | rejected | unrecorded | recorded => cases ho

theorem Unsent.exists_crash {c : Crash} (h : Unsent settings gasPrice batch es (.error c)) :
    ∃ e ∈ es, ¬CalmEvent e := by
  generalize ho : (.error c : Except Crash (Except Error Unit)) = o at h
  cases h with
  | noAccount failed =>
    obtain rfl := Failure.eq_crash ho.symm
    exact ⟨_, .head _, not_calmEvent failed⟩
  | notSimulated _ failed =>
    obtain rfl := Failure.eq_crash ho.symm
    exact ⟨_, .tail _ (.head _), not_calmEvent failed⟩
  | cancelled _ _ _ cancels =>
    cases ho
    cases cancels
  | notEstimated _ _ _ failed abandons =>
    cases ho
    obtain rfl := abandons.eq_crash
    exact ⟨_, .tail _ (.tail _ (.head _)), not_calmEvent failed⟩
  | noHeight _ _ _ _ failed =>
    obtain rfl := Failure.eq_crash ho.symm
    exact ⟨_, .tail _ (.tail _ (.tail _ (.head _))), not_calmEvent failed⟩
  | notSigned _ _ _ _ _ failed abandons =>
    cases ho
    obtain rfl := abandons.eq_crash
    exact ⟨_, .tail _ (.tail _ (.tail _ (.tail _ (.head _)))), not_calmEvent failed⟩

/-- A sender's course crashes only where the client does. -/
theorem SenderCourse.exists_crash {c : Crash} (h : SenderCourse settings gasPrice batch es (.error c)) :
    ∃ e ∈ es, ¬CalmEvent e := by
  cases h with
  | unsent unsent => exact unsent.exists_crash
  | refused signs broadcasts abandons =>
    obtain rfl := abandons.eq_crash
    obtain ⟨e, he, hcrash⟩ := broadcasts.exists_crash
    exact ⟨e, List.mem_append_right _ (List.mem_append_left _ he), hcrash⟩
  | sent signs broadcasts confirms =>
    obtain ⟨e, he, hcrash⟩ := confirms.exists_crash
    exact ⟨e, List.mem_append_right _ (List.mem_append_right _ he), hcrash⟩

/-! ## The fate of the messages -/

theorem passes_of_calls (hcalls : ∀ e ∈ es, ∃ call reply, e = called behalf call reply ∧ isBroadcast e = false)
    (h : Passes chainId s es s') : s' = s := by
  induction es generalizing s with
  | nil => exact h
  | cons e es ih =>
    obtain ⟨m, he, hpass⟩ := h
    obtain ⟨call, reply, rfl, _⟩ := hcalls e List.mem_cons_self
    cases he
    exact ih (fun e he => hcalls e (List.mem_cons_of_mem _ he)) hpass

theorem Broadcasts.passes_failure {tx : Bytes} {failure : Failure}
    (h : Broadcasts behalf tx es failure.result) (hpass : Passes chainId s es s') : s' = s := by
  generalize ho : (failure.result : Except Crash (Except Error String)) = o at h
  cases h with
  | failed | rejected =>
    obtain ⟨m, he, rfl⟩ := hpass
    cases he
    rfl
  | unrecorded =>
    obtain ⟨m, he, n, hrecord, rfl⟩ := hpass
    cases he
    rcases Store.updateAll_cases s chainId behalf.ids .broadcasted (some _) with ⟨heq, hok⟩ | ⟨e, heq⟩
    · rw [← heq, show s.updateAll chainId _ _ _ = _ from hrecord] at hok
      cases hok
    · exact congrArg Prod.snd ((show s.updateAll chainId _ _ _ = _ from hrecord).symm.trans heq)
  | recorded => cases failure <;> cases ho

/-- Messages that may all move are all moved. -/
theorem passes_moving_of_movable {ids : List MsgId} {target : MsgState} {a : Except Error Unit} (hs : s.Lawful)
    (hids : s.Movable chainId ids target) (hpass : Passes chainId s [moving ids target a] s')
    (htarget : target ≠ .broadcasted) : a = .ok () ∧ s' = s.moved (Store.named chainId ids) target none := by
  have hupdate : s.update chainId ids target none = (.ok (), s.moved (Store.named chainId ids) target none) :=
    hids.update_eq hs fun heq => absurd heq htarget
  have hmeets : s.update chainId ids target none = (a, s') := passes_singleton.1 hpass
  rw [hupdate] at hmeets
  cases hmeets
  exact ⟨rfl, rfl⟩

theorem passes_moving {ids : List MsgId} {source target : MsgState} {a : Except Error Unit} (hs : s.Lawful)
    (hnodup : ids.Nodup) (hall : s.AllIn chainId ids source) (hpass : Passes chainId s [moving ids target a] s')
    (hmove : source.canMoveTo target = true) (htarget : target ≠ .broadcasted) :
    a = .ok () ∧ s' = s.moved (Store.named chainId ids) target none :=
  passes_moving_of_movable hs (hall.movable hnodup hmove) hpass htarget

theorem passes_errored {ids : List MsgId} {source : MsgState} {a : Except Error Unit} (hs : s.Lawful)
    (hnodup : ids.Nodup) (hall : s.AllIn chainId ids source) (hpass : Passes chainId s [moving ids .errored a] s')
    (hmove : source.canMoveTo .errored = true) : s'.AllIn chainId ids .errored := by
  obtain ⟨_, rfl⟩ := passes_moving hs hnodup hall hpass hmove nofun
  refine Store.allIn_moved fun id hid => ?_
  obtain ⟨row, hrow, hchain, hrowId, _⟩ := hall id hid
  exact ⟨row, hrow, hchain, hrowId⟩

/-- A broadcast that the store has recorded has moved all of its messages. -/
theorem passes_movingAll {ids : List MsgId} {state : MsgState} {txHash : String} (hs : s.Lawful)
    (hpass : Passes chainId s [movingAll ids state txHash (.ok ())] s') :
    s' = s.moved (Store.named chainId ids) state (some txHash) ∧ s'.AllIn chainId ids state := by
  have hrecorded : s.updateAll chainId ids state (some txHash) = (.ok (), s') := passes_singleton.1 hpass
  rcases Store.updateAll_cases s chainId ids state (some txHash) with ⟨heq, _⟩ | ⟨e, heq⟩
  · rw [heq] at hrecorded
    obtain ⟨rfl, _, hrows⟩ := Store.update_ok hs hrecorded
    exact ⟨rfl, Store.allIn_moved hrows⟩
  · cases heq.symm.trans hrecorded

theorem Abandons.errored {ids : List MsgId} {failure : Failure} (h : Abandons ids failure es r)
    (hfailure : ∀ c, failure ≠ .crash c) (hs : s.Lawful) (hnodup : ids.Nodup)
    (hstarted : s.AllIn chainId ids .started) (hpass : Passes chainId s es s') :
    s'.AllIn chainId ids .errored := by
  cases h with
  | @crashed c => exact absurd rfl (hfailure c)
  | failed => exact passes_errored hs hnodup hstarted hpass rfl

theorem passes_called {behalf : Behalf} {call : ClientCall} {reply : Reply call.Result}
    (h : Passes chainId s (Dispatch.called behalf call reply :: es) s') : Passes chainId s es s' := by
  obtain ⟨m, he, h⟩ := h
  cases he
  exact h

/-- Once the store has recorded a broadcast, the messages are never sent again. -/
theorem Broadcasts.spent {behalf : Behalf} {tx : Bytes} {txHash : String}
    (h : Broadcasts behalf tx es (.ok (.ok txHash))) (hs : s.Lawful)
    (hpass : Passes chainId s es s') : ∀ id ∈ behalf.ids, s'.Spent id := by
  generalize ho : (.ok (.ok txHash) : Except Crash (Except Error String)) = o at h
  cases h with
  | @failed _ failure => cases failure <;> cases ho
  | rejected | unrecorded => cases ho
  | recorded => exact (passes_movingAll hs (passes_called hpass)).2.spent rfl

/-- Unless the client takes the dispatcher down, a sender's messages are spent once they have been broadcast. -/
theorem SenderCourse.spent (h : SenderCourse settings gasPrice batch es r)
    (hcalm : ∀ e ∈ es, CalmEvent e) (hs : s.Lawful) (hnodup : batch.msgs.ids.Nodup)
    (hstarted : s.AllIn chainId batch.msgs.ids .started) (hpass : Passes chainId s es s')
    (hsent : ∃ e ∈ es, isBroadcast e = true) : ∀ id ∈ batch.msgs.ids, s'.Spent id := by
  cases h with
  | unsent unsent =>
    obtain ⟨e, he, hbroadcast⟩ := hsent
    rw [(unsent.plain e he).not_isBroadcast] at hbroadcast
    cases hbroadcast
  | @refused es fs gs tx bytes failure r signs broadcasts abandons =>
    obtain ⟨m, hsigns, hpass⟩ := passes_append.1 hpass
    obtain ⟨n, hbroadcasts, habandons⟩ := passes_append.1 hpass
    obtain rfl := passes_of_calls signs.called hsigns
    obtain rfl := broadcasts.passes_failure hbroadcasts
    have herrored := abandons.errored (fun c hc => ?_) hs hnodup hstarted habandons
    · exact herrored.spent rfl
    · subst hc
      obtain ⟨e, he, hcrash⟩ := broadcasts.exists_crash
      exact hcrash (hcalm e (List.mem_append_right _ (List.mem_append_left _ he)))
  | sent signs broadcasts confirms =>
    obtain ⟨m, hsigns, hpass⟩ := passes_append.1 hpass
    obtain ⟨n, hbroadcasts, hconfirms⟩ := passes_append.1 hpass
    obtain rfl := passes_of_calls signs.called hsigns
    have hn := evolves_of_passes hs hbroadcasts
    exact fun id hid => (evolves_of_passes hn.lawful hconfirms).spent (broadcasts.spent hs hbroadcasts id hid)

end ReportRelay.Dispatch
