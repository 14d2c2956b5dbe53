import ReportRelay.Proofs.Dispatch.Signing

/-!
# What is marked as broadcasted

A row becomes broadcasted in one step only: when the store records a transaction that the chain has just accepted. That
step takes all rows of which the transaction holds the messages, and no others, whatever the other senders do meanwhile.
-/

namespace ReportRelay.Dispatch

variable {chainId sender txHash : String} {s s' made n before after : Store} {settings : Settings}
  {gasPrice : DecCoin} {m : Makeup} {batch : SenderBatch} {behalf : Behalf} {bytes : Bytes} {ids : List MsgId}
  {state : MsgState} {a : Except Error Unit} {e : Event interface}
  {t u v w es past : List (Event interface)} {r : Except Crash (Except Error Unit)} {row : Row} {now : Int}

/-! ## Steps -/

/-- One step of a course: what has happened before it, and the store on both sides of it. -/
structure StepOf (chainId : String) (store : Store) (t past : List (Event interface)) (e : Event interface)
    (before after : Store) : Prop where
  place : past ++ [e] <+: t
  reached : Passes chainId store past before
  meets : Meets chainId e before after

/-- From this step on the row is broadcasted, with this hash. -/
structure BecomesBroadcasted (txHash : String) (before after : Store) (row : Row) : Prop where
  present : row ∈ after.rows
  new : row ∉ before.rows
  state_eq : row.state = .broadcasted
  txHash_eq : row.txHash = some txHash

/-- The rows that become broadcasted are those with the given ids. -/
def Marks (txHash : String) (ids : List MsgId) (before after : Store) : Prop :=
  ∀ id, id ∈ ids ↔ ∃ row, BecomesBroadcasted txHash before after row ∧ row.id = id

/-- The last thing that was asked for the sender was to broadcast, and the chain has accepted the transaction. -/
def Accepted (behalf : Behalf) (txHash : String) (past : List (Event interface)) : Prop :=
  ∃ bytes reply response, (callsFor behalf.sender past).getLast? = some (called behalf (.broadcast bytes) reply) ∧
    reply.outcome = .ok (.ok response) ∧ response.code = 0 ∧ response.txHash = txHash

theorem marks_of_moved (hs : s.Lawful) (hall : s.AllIn chainId ids .started) :
    Marks txHash ids s (s.moved (Store.named chainId ids) .broadcasted (some txHash)) := by
  intro id
  constructor
  · intro hid
    obtain ⟨row, hrow, hchain, rfl, hstate⟩ := hall id hid
    refine ⟨row.moveTo .broadcasted (some txHash),
      ⟨Store.mem_moved.2 ⟨row, hrow, if_pos (Store.named_iff.2 ⟨hchain, hid⟩)⟩, fun hold => ?_, rfl, rfl⟩, rfl⟩
    -- the row was started before, and it is the only one with its id
    have hsame : row.moveTo .broadcasted (some txHash) = row := hs.eq_of_id_eq hold hrow rfl
    have hbroadcasted : row.state = .broadcasted := by
      rw [← hsame]
      rfl
    rw [hstate] at hbroadcasted
    cases hbroadcasted
  · rintro ⟨row, hbecomes, rfl⟩
    obtain ⟨old, hold, rfl⟩ := Store.mem_moved.1 hbecomes.present
    split_ifs with hnamed
    · exact (Store.named_iff.1 hnamed).2
    · have hnew := hbecomes.new
      rw [if_neg hnamed] at hnew
      exact absurd hold hnew

/-- Started rows that are all recorded as broadcasted are so afterwards, and the store does not refuse it. -/
theorem marks_of_meets (hs : s.Lawful) (hnodup : ids.Nodup) (hall : s.AllIn chainId ids .started)
    (hmeets : Meets chainId (movingAll ids .broadcasted txHash a) s s') : Marks txHash ids s s' := by
  have hupdate : s.update chainId ids .broadcasted (some txHash) = _ :=
    (hall.movable hnodup rfl).update_eq hs fun _ => Option.some_ne_none txHash
  have hrecord : s.updateAll chainId ids .broadcasted (some txHash) = (a, s') := hmeets
  rw [Store.updateAll, hupdate] at hrecord
  cases hrecord
  exact marks_of_moved hs hall

/-! ## One sender's mark -/

/-- A change that takes all of its rows or none. -/
def isMark : Event interface → Bool
  | ⟨.storeAll .., _⟩ => true
  | _ => false

theorem PlainEvent.isMark_eq_false (h : PlainEvent behalf e) : isMark e = false := by
  cases h <;> rfl

theorem ConfirmCourse.isMark_eq_false (h : ConfirmCourse settings behalf txHash es r) :
    ∀ e ∈ es, isMark e = false := by
  intro e he
  rcases h.plain_or_confirmed e he with hplain | ⟨a, rfl⟩
  · exact hplain.isMark_eq_false
  · rfl

theorem movingAll_not_mem (h : ∀ e ∈ es, isMark e = false) : movingAll ids state txHash a ∉ es := by
  intro hmem
  cases h _ hmem

/-- The call that a mark follows, and all calls before it. -/
structure LeadsToMark (behalf : Behalf) (txHash : String) (es : List (Event interface)) : Prop where
  calls : ∀ e ∈ es, ∃ call reply, e = called behalf call reply
  accepted : Accepted behalf txHash es

theorem leadsToMark_of_calls {reply : Reply BroadcastResponse} {response : BroadcastResponse}
    (hcalls : ∀ e ∈ es, ∃ call reply, e = called behalf call reply)
    (hreply : reply.outcome = .ok (.ok response)) (hcode : response.code = 0) :
    LeadsToMark behalf response.txHash (es ++ [called behalf (.broadcast bytes) reply]) := by
  refine ⟨List.forall_mem_append.2 ⟨hcalls, List.forall_mem_singleton.2 ⟨_, _, rfl⟩⟩, bytes, reply, response, ?_,
    hreply, hcode, rfl⟩
  have hown : isCallFor behalf.sender (called behalf (.broadcast bytes) reply) = true := decide_eq_true rfl
  rw [callsFor_append, callsFor, callsFor, List.filter_cons_of_pos hown, List.filter_nil, List.getLast?_concat]

theorem Broadcasts.leadsToMark {tx : UnsignedTx} {fs gs : List (Event interface)}
    {o : Except Crash (Except Error String)} (h : Broadcasts batch.behalf bytes fs o)
    (signs : Signs settings gasPrice batch es tx bytes) (hafter : ∀ e ∈ gs, isMark e = false)
    (heq : es ++ (fs ++ gs) = u ++ movingAll ids state txHash a :: v) : LeadsToMark batch.behalf txHash u := by
  have hcalls : ∀ e ∈ es, ∃ call reply, e = called batch.behalf call reply := by
    intro e he
    obtain ⟨call, reply, hcall, _⟩ := signs.called e he
    exact ⟨call, reply, hcall⟩
  have hbefore {reply : Reply BroadcastResponse} :
      ∀ e ∈ es ++ [called batch.behalf (.broadcast bytes) reply], isMark e = false :=
    List.forall_mem_append.2 ⟨fun e he => (signs.plain e he).isMark_eq_false, List.forall_mem_singleton.2 rfl⟩
  have hmem : movingAll ids state txHash a ∈ es ++ (fs ++ gs) := by
    rw [heq]
    exact List.mem_append_right _ List.mem_cons_self
  cases h with
  | failed | rejected =>
    rw [← List.append_assoc] at hmem
    exact absurd hmem (movingAll_not_mem (List.forall_mem_append.2 ⟨hbefore, hafter⟩))
  | @unrecorded reply response e response_eq code | @recorded reply response response_eq code =>
    obtain ⟨rfl, hmark, rfl⟩ := (List.append_cons_inj_of_notMem (movingAll_not_mem hbefore)
      (movingAll_not_mem hafter)).1 ((List.append_assoc es [_] (_ :: gs)).trans heq)
    cases hmark
    exact leadsToMark_of_calls hcalls response_eq code

theorem SenderCourse.leadsToMark
    (h : SenderCourse settings gasPrice batch (u ++ movingAll ids state txHash a :: v) r) :
    LeadsToMark batch.behalf txHash u := by
  generalize hes : u ++ movingAll ids state txHash a :: v = es at h
  cases h with
  | unsent unsent =>
    have hmem : movingAll ids state txHash a ∈ es := by
      rw [← hes]
      exact List.mem_append_right _ List.mem_cons_self
    exact absurd hmem (movingAll_not_mem fun e he => (unsent.plain e he).isMark_eq_false)
  | refused signs broadcasts abandons =>
    exact broadcasts.leadsToMark signs (fun e he => (abandons.plain batch.behalf e he).isMark_eq_false) hes.symm
  | sent signs broadcasts confirms => exact broadcasts.leadsToMark signs confirms.isMark_eq_false hes.symm

theorem Broadcasts.exists_mark {tx : Bytes} {o : Except Crash (Except Error String)} {other : Behalf}
    {reply : Reply BroadcastResponse} {response : BroadcastResponse} (h : Broadcasts behalf tx es o)
    (hmem : called other (.broadcast bytes) reply ∈ es) (hreply : reply.outcome = .ok (.ok response))
    (hcode : response.code = 0) : ∃ a, movingAll behalf.ids .broadcasted response.txHash a ∈ es := by
  cases h with
  | @failed _ failure failed =>
    cases List.mem_singleton.1 hmem
    rw [failed] at hreply
    cases failure <;> cases hreply
  | rejected response_eq code =>
    cases List.mem_singleton.1 hmem
    cases response_eq.symm.trans hreply
    exact absurd hcode code
  | unrecorded response_eq | recorded response_eq =>
    rcases List.mem_cons.1 hmem with heq | hmem
    · cases heq
      cases response_eq.symm.trans hreply
      exact ⟨_, .tail _ (.head _)⟩
    · cases List.mem_singleton.1 hmem

/-- In a course that comes to its end, a transaction that the chain accepts is recorded. -/
theorem SenderCourse.exists_mark {other : Behalf} {reply : Reply BroadcastResponse} {response : BroadcastResponse}
    (h : SenderCourse settings gasPrice batch es r) (hmem : called other (.broadcast bytes) reply ∈ es)
    (hreply : reply.outcome = .ok (.ok response)) (hcode : response.code = 0) :
    ∃ a, movingAll batch.msgs.ids .broadcasted response.txHash a ∈ es := by
  have hsent {es fs gs : List (Event interface)} {tx : UnsignedTx} {signed : Bytes}
      {o : Except Crash (Except Error String)} (signs : Signs settings gasPrice batch es tx signed)
      (broadcasts : Broadcasts batch.behalf signed fs o) (hgs : ∀ e ∈ gs, isBroadcast e = false)
      (hmem : called other (.broadcast bytes) reply ∈ es ++ (fs ++ gs)) :
      ∃ a, movingAll batch.msgs.ids .broadcasted response.txHash a ∈ es ++ (fs ++ gs) := by
    rcases List.mem_append.1 hmem with hmem | hmem
    · exact absurd hmem (broadcast_not_mem fun e he => (signs.plain e he).not_isBroadcast)
    rcases List.mem_append.1 hmem with hmem | hmem
    · obtain ⟨a, hmark⟩ := broadcasts.exists_mark hmem hreply hcode
      exact ⟨a, List.mem_append_right _ (List.mem_append_left _ hmark)⟩
    · exact absurd hmem (broadcast_not_mem hgs)
  cases h with
  | unsent unsent => exact absurd hmem (broadcast_not_mem fun e he => (unsent.plain e he).not_isBroadcast)
  | refused signs broadcasts abandons =>
    exact hsent signs broadcasts (fun e he => (abandons.plain batch.behalf e he).not_isBroadcast) hmem
  | sent signs broadcasts confirms => exact hsent signs broadcasts confirms.not_isBroadcast hmem

/-! ## Among the other senders -/

theorem SenderEvent.eq_of_movingAll (h : SenderEvent behalf (movingAll ids state txHash a)) :
    ids = behalf.ids ∧ state = .broadcasted := by
  cases h with
  | plain plain => cases plain
  | broadcasted => exact ⟨rfl, rfl⟩

theorem LeadsToMark.passes (h : LeadsToMark behalf txHash es) (hpass : Passes chainId s es s') : s' = s := by
  have hcalls := h.calls
  clear h
  induction es generalizing s with
  | nil => exact hpass
  | cons e es ih =>
    obtain ⟨call, reply, rfl⟩ := hcalls e List.mem_cons_self
    exact ih (passes_called hpass) fun e he => hcalls e (List.mem_cons_of_mem _ he)

/-- A mark takes the rows of its sender, for a transaction that the chain has just accepted. -/
theorem Sending.marks {x y z : List (Event interface)} (h : Sending chainId settings m gasPrice u w s made n)
    (hbatch : batch ∈ m.batches) (hbegun : HasBegun settings gasPrice batch (x ++ movingAll ids state txHash a :: y))
    (hothers : OfOthers m.batches batch.msgs.sender z) (hinterleave : Interleave x z past)
    (hpass : Passes chainId n past before) (hmeets : Meets chainId (movingAll ids state txHash a) before after) :
    Accepted batch.behalf txHash (u ++ past) ∧ Marks txHash batch.msgs.ids before after := by
  obtain ⟨hids, hstate⟩ := (hbegun.event (movingAll ids state txHash a)
    (List.mem_filter.2 ⟨List.mem_append_right _ List.mem_cons_self, rfl⟩)).eq_of_movingAll
  subst hids hstate
  have hleads : LeadsToMark batch.behalf txHash (deeds x) := by
    obtain ⟨v, r, hcourse⟩ := id hbegun
    rw [deeds_append, List.append_assoc] at hcourse
    exact SenderCourse.leadsToMark (v := deeds y ++ v) hcourse
  constructor
  · obtain ⟨bytes, reply, response, hlast, hreply⟩ := hleads.accepted
    refine ⟨bytes, reply, response, ?_, hreply⟩
    rw [← hlast, h.callsFor_eq, callsFor_deeds]
    exact congrArg List.getLast? (callsFor_of_interleave hinterleave hothers)
  · have hlawful := (evolves_of_passes h.madeUp.evolves.lawful h.starts).lawful
    have halone : Passes chainId (n.restrict batch.msgs.ids) (deeds x) (before.restrict batch.msgs.ids) := by
      refine passes_restrict (hinterleave.filter isDeed) (fun e he => ?_) (fun e he => ?_) (passes_deeds.2 hpass)
      · obtain ⟨call, reply, rfl⟩ := hleads.calls e he
        trivial
      · obtain ⟨other, hother, hne, hevent⟩ := hothers e he
        refine hevent.names.imp fun id hid => ?_
        exact h.madeUp.distinct.not_mem_ids (h.madeUp.parted.mem_batches hother)
          (h.madeUp.parted.mem_batches hbatch) hne hid
    have hstarted : before.AllIn chainId batch.msgs.ids .started := by
      intro id hid
      obtain ⟨row, hrow, hstarted⟩ := (h.madeUp.allIn_started h.starts hbatch).restrict (fun _ hmem => hmem) id hid
      rw [← hleads.passes halone] at hrow
      exact ⟨row, (Store.mem_restrict.1 hrow).1, hstarted⟩
    exact marks_of_meets (evolves_of_passes hlawful hpass).lawful (h.madeUp.nodup_ids hbatch) hstarted hmeets

/-! ## Every mark -/

theorem BecomesBroadcasted.exists_move (h : BecomesBroadcasted txHash before after row) (hs : before.Lawful)
    (hmeets : Meets chainId e before after) :
    ∃ ids, move? e = some (ids, .broadcasted, some txHash) ∧ row.id ∈ ids := by
  rcases mem_of_meets hs hmeets h.present with
    hold | ⟨_, _, hnew, _⟩ | ⟨ids, state, hash, hmove, old, _, hid, _, rfl⟩
  · exact absurd hold h.new
  · cases hnew.symm.trans h.state_eq
  · have hstate := h.state_eq
    rw [Row.moveTo_state] at hstate
    subst hstate
    obtain rfl : hash = some txHash := h.txHash_eq
    exact ⟨ids, hmove, hid⟩

theorem Groundwork.move_eq {hash : Option String} (h : Groundwork e) (hmove : move? e = some (ids, state, hash)) :
    hash = none := by
  cases h <;> cases hmove
  rfl

/-- Nothing becomes broadcasted while a batch is prepared. -/
theorem not_mem_of_preparing {o : Except Crash (Except Error (Option Plan))} (h : (prepare settings).Takes u o)
    (hmove : move? e = some (ids, state, some txHash)) : e ∉ u := by
  intro hmem
  have hdeed : e ∈ deeds u := List.mem_filter.2 ⟨hmem, isDeed_of_move hmove⟩
  rcases (takes_prepare h).groundwork with hground | ⟨fs, toPrices, hdeeds, hground, _⟩
  · cases (hground e hdeed).move_eq hmove
  · rw [hdeeds] at hdeed
    rcases List.mem_append.1 hdeed with hdeed | hdeed
    · cases (hground e hdeed).move_eq hmove
    · cases List.mem_singleton.1 hdeed
      cases hmove

theorem SenderEvent.eq_movingAll (h : SenderEvent behalf e) (hmove : move? e = some (ids, .broadcasted, some txHash)) :
    ids = behalf.ids ∧ ∃ a, e = movingAll ids .broadcasted txHash a := by
  cases h with
  | plain plain => cases plain <;> cases hmove
  | broadcasted =>
    cases hmove
    exact ⟨rfl, _, rfl⟩
  | broadcast | confirmed => cases hmove

/-- What lies beyond a beginning in which it does not occur comes after all of that beginning. -/
theorem exists_of_append_cons_eq {α : Type} {a : α} {u w past rest : List α} (h : past ++ a :: rest = u ++ w)
    (hnot : a ∉ u) : ∃ between, past = u ++ between ∧ w = between ++ a :: rest := by
  rcases List.append_eq_append_iff.1 h with ⟨between, rfl, hrest⟩ | ⟨between, rfl, rfl⟩
  · cases between with
    | nil => exact ⟨[], by simp, hrest.symm⟩
    | cons b between =>
      obtain ⟨rfl, _⟩ := List.cons.inj hrest
      exact absurd (List.mem_append_right past List.mem_cons_self) hnot
  · exact ⟨between, rfl, rfl⟩

theorem OfOthers.of_append {batches : List SenderBatch} (h : OfOthers batches sender (u ++ v)) :
    OfOthers batches sender u := by
  intro e he
  rw [OfOthers, deeds_append] at h
  exact h e (List.mem_append_left _ he)

/-- Whenever a row becomes broadcasted, it does so with all the others of its transaction. -/
theorem Sending.exists_marks (h : Sending chainId settings m gasPrice u w s made n)
    (hstep : StepOf chainId s (u ++ w) past e before after) (hrow : BecomesBroadcasted txHash before after row)
    (hs : s.Lawful) :
    ∃ batch ∈ m.batches, Accepted batch.behalf txHash past ∧ Marks txHash batch.msgs.ids before after := by
  obtain ⟨⟨rest, hplace⟩, hreached, hmeets⟩ := hstep
  obtain ⟨ids, hmove, hid⟩ := hrow.exists_move (evolves_of_passes hs hreached).lawful hmeets
  rw [List.append_assoc, List.singleton_append] at hplace
  obtain ⟨between, rfl, rfl⟩ := exists_of_append_cons_eq hplace (not_mem_of_preparing h.prepares hmove)
  obtain ⟨n', hprepared, hpass⟩ := passes_append.1 hreached
  obtain rfl := passes_unique h.prepared hprepared
  obtain ⟨us, hmerge, hbegun, _⟩ := h.parts
  -- the mark is one of a batch, and of no other one, as batches have no messages in common
  obtain ⟨batch, hbatch, hevent⟩ := exists_sender_of_merge (fun _ _ => HasBegun.event) hmerge hbegun e
    (List.mem_filter.2 ⟨List.mem_append_right _ List.mem_cons_self, isDeed_of_move hmove⟩)
  obtain ⟨rfl, a, rfl⟩ := hevent.eq_movingAll hmove
  obtain ⟨x, z, hinterleave, hothers, ⟨own, hown, hsender, hbegun⟩ | ⟨_, hnobody⟩⟩ :=
    exists_part_of_merge (fun _ _ => HasBegun.event) h.nodup_senders hmerge hbegun batch.msgs.sender
  · obtain rfl := List.inj_on_of_nodup_map h.nodup_senders hown hbatch hsender
    have hnot : movingAll own.behalf.ids .broadcasted txHash a ∉ z := by
      intro hmem
      obtain ⟨other, hother, hne, hevent⟩ := hothers _ (List.mem_filter.2 ⟨hmem, rfl⟩)
      obtain ⟨hids, _⟩ := hevent.eq_movingAll hmove
      have hother' : row.id ∈ other.behalf.ids := hids ▸ hid
      exact h.madeUp.distinct.not_mem_ids (h.madeUp.parted.mem_batches hother)
        (h.madeUp.parted.mem_batches hbatch) hne hother' hid
    obtain ⟨x₁, x₂, z₁, z₂, rfl, rfl, hbefore⟩ := hinterleave.exists_of_split_at hnot
    exact ⟨own, hbatch, h.marks hbatch hbegun hothers.of_append hbefore hpass hmeets⟩
  · exact absurd rfl (hnobody batch hbatch)

/-- Unless the client takes the dispatcher down, a transaction that the chain accepts is recorded in one step. -/
theorem Sending.exists_step {reply : Reply BroadcastResponse} {response : BroadcastResponse}
    (h : Sending chainId settings m gasPrice u w s made n) (hcalm : ∀ e ∈ w, CalmEvent e)
    (hpass : Passes chainId n w s') (hmem : called behalf (.broadcast bytes) reply ∈ u ++ w)
    (hreply : reply.outcome = .ok (.ok response)) (hcode : response.code = 0) :
    ∃ batch ∈ m.batches, batch.behalf = behalf ∧ ∃ past e before after,
      StepOf chainId s (u ++ w) past e before after ∧ Accepted batch.behalf response.txHash past ∧
        Marks response.txHash batch.msgs.ids before after := by
  obtain ⟨us, hmerge, _, hends⟩ := h.parts
  obtain ⟨x, z, hinterleave, hothers, hown⟩ :=
    exists_part_of_merge (fun _ _ he => he.hasBegun.event) h.nodup_senders hmerge (hends hcalm) behalf.sender
  have hcall : called behalf (.broadcast bytes) reply ∈ callsFor behalf.sender (deeds x) := by
    rw [callsFor_deeds, ← callsFor_of_interleave hinterleave hothers, ← h.callsFor_eq]
    exact List.mem_filter.2 ⟨hmem, decide_eq_true rfl⟩
  have hdeed := List.mem_of_mem_filter hcall
  obtain ⟨batch, hbatch, _, r, hcourse⟩ | ⟨rfl, _⟩ := hown
  · obtain ⟨a, hmark⟩ := hcourse.exists_mark hdeed hreply hcode
    have hbehalf : behalf = batch.behalf := (hcourse.event _ hdeed).eq_of_sent? rfl
    obtain ⟨x₁, x₂, rfl⟩ := List.append_of_mem (List.mem_of_mem_filter hmark)
    obtain ⟨w₁, w₂, z₁, z₂, rfl, rfl, hbefore⟩ := hinterleave.exists_of_left_append
    obtain ⟨before, hpast, after, hmeets, _⟩ := passes_append.1 hpass
    have hsender : batch.msgs.sender = behalf.sender := congrArg Behalf.sender hbehalf.symm
    have hmarks := h.marks hbatch (HasEnded.hasBegun ⟨r, hcourse⟩) (hsender ▸ hothers.of_append) hbefore hpast hmeets
    refine ⟨batch, hbatch, hbehalf.symm, u ++ w₁, _, before, after, ⟨?_, ?_, hmeets⟩, hmarks⟩
    · exact ⟨w₂, by simp⟩
    · exact passes_append.2 ⟨n, h.prepared, hpast⟩
  · cases hdeed

/-! ## The batch -/

/-- What a batch signs is what it has simulated, and what is marked as broadcasted is what it has signed. -/
structure Faithful (chainId : String) (settings : Settings) (now : Int) (store : Store) (t : List (Event interface)) :
    Prop where
  oneAccount : ∀ sender, (requests (callsFor sender t)).countP ClientCall.isAccount ≤ 1
  oneSignature : ∀ sender, (requests (callsFor sender t)).countP ClientCall.isCreateAndSign ≤ 1
  oneBroadcast : ∀ sender, (requests (callsFor sender t)).countP ClientCall.isBroadcast ≤ 1
  ascending : ∀ sender, ((store.oldest chainId .started settings.maxMsgsPerBatch).filter
    (isDue settings now sender)).Pairwise (·.id < ·.id)
  asked : ∀ sender, callsFor sender t ≠ [] → ∃ msgs account tx signer bytes,
    List.Forall₂ Conveys (sentRows chainId settings now sender store) msgs ∧ tx.messages = msgs.map SimMsg.message ∧
      requests (callsFor sender t) <+: script sender msgs account tx signer bytes
  signed : ∀ sender, (∃ e ∈ callsFor sender t, transacts e = true) →
    SignedAsSimulated settings ⟨sender, batchIds chainId settings now sender store⟩
      (sentRows chainId settings now sender store) (callsFor sender t)
  marked : ∀ past e before after, StepOf chainId store t past e before after →
    ∀ txHash row, BecomesBroadcasted txHash before after row →
      ∃ sender, Accepted ⟨sender, batchIds chainId settings now sender store⟩ txHash past ∧
        Marks txHash (batchIds chainId settings now sender store) before after
  recorded : (∀ e ∈ t, CalmEvent e) → ∀ behalf bytes reply response,
    called behalf (.broadcast bytes) reply ∈ t → reply.outcome = .ok (.ok response) → response.code = 0 →
      ∃ past e before after, StepOf chainId store t past e before after ∧ Accepted behalf response.txHash past ∧
        Marks response.txHash (batchIds chainId settings now behalf.sender store) before after

/-- What is asked once in the script is asked at most once. -/
theorem countP_requests_le {kind : ClientCall → Bool} (h : (sendMsgBatch settings).Takes t r) (hs : s.Lawful)
    (hpass : Passes chainId s t s')
    (honce : ∀ sender msgs account tx signer bytes, (script sender msgs account tx signer bytes).countP kind = 1)
    (sender : String) : (requests (callsFor sender t)).countP kind ≤ 1 := by
  by_cases hsome : callsFor sender t = []
  · rw [hsome]
    exact Nat.zero_le 1
  · obtain ⟨now, msgs, account, tx, signer, bytes, _, _, _, hscript⟩ := exists_script_of_batch h hs hpass hsome
    rw [← honce sender msgs account tx signer bytes]
    exact hscript.sublist.countP_le

theorem faithful_of_takes (h : (sendMsgBatch settings).Takes t r) (hs : s.Lawful) (hpass : Passes chainId s t s')
    (hclock : ∀ time ∈ clockReadings t, time = now) : Faithful chainId settings now s t where
  oneAccount := countP_requests_le h hs hpass fun _ _ _ _ _ _ => rfl
  oneSignature := countP_requests_le h hs hpass fun _ _ _ _ _ _ => rfl
  oneBroadcast := countP_requests_le h hs hpass fun _ _ _ _ _ _ => rfl
  ascending sender := (Store.ascending_oldest hs).filter _
  asked sender hsome := by
    obtain ⟨time, msgs, account, tx, signer, bytes, htime, hscript⟩ := exists_script_of_batch h hs hpass hsome
    obtain rfl := hclock time (mem_clockReadings htime)
    exact ⟨msgs, account, tx, signer, bytes, hscript⟩
  signed sender hsome := by
    rcases cases_of_callsFor h hs hpass sender with
      hnone | ⟨time, gasPrice, batch, x, htime, hbehalf, hconveys, hbegun, hcalls⟩
    · obtain ⟨e, he, _⟩ := hsome
      rw [hnone] at he
      cases he
    obtain rfl := hclock time (mem_clockReadings htime)
    rw [hcalls] at hsome ⊢
    obtain ⟨e, he, htransacts⟩ := hsome
    rw [← hbehalf]
    obtain rfl : batch.msgs.sender = sender := congrArg Behalf.sender hbehalf
    exact hbegun.signedAsSimulated hconveys ⟨e, List.mem_of_mem_filter he, htransacts⟩
  marked past e before after hstep txHash row hrow := by
    rcases cases_of_sending h hs hpass with ⟨o, hprepare, _⟩ | ⟨m, gasPrice, u, w, made, n, rfl, hsending, _⟩
    · obtain ⟨ids, hmove, _⟩ := hrow.exists_move (evolves_of_passes hs hstep.reached).lawful hstep.meets
      refine absurd (hstep.place.subset ?_) (not_mem_of_preparing hprepare hmove)
      exact List.mem_append_right _ (List.mem_singleton_self e)
    · obtain rfl := hclock m.now (mem_clockReadings (List.mem_append_left _ hsending.clockRead_mem))
      obtain ⟨batch, hbatch, haccepted, hmarks⟩ := hsending.exists_marks hstep hrow hs
      refine ⟨batch.msgs.sender, hsending.behalf_eq hbatch ▸ haccepted, ?_⟩
      rwa [← hsending.ids_eq hbatch]
  recorded hcalm behalf bytes reply response hmem hreply hcode := by
    rcases cases_of_sending h hs hpass with ⟨o, hprepare, _⟩ | ⟨m, gasPrice, u, w, made, n, rfl, hsending, hsent⟩
    · have hcall : called behalf (.broadcast bytes) reply ∈ callsFor behalf.sender t :=
        List.mem_filter.2 ⟨hmem, decide_eq_true rfl⟩
      rw [← callsFor_deeds, (takes_prepare hprepare).callsFor_eq_nil] at hcall
      cases hcall
    · obtain rfl := hclock m.now (mem_clockReadings (List.mem_append_left _ hsending.clockRead_mem))
      obtain ⟨batch, hbatch, rfl, past, e, before, after, hstep, haccepted, hmarks⟩ := hsending.exists_step
        (fun e he => hcalm e (List.mem_append_right _ he)) hsent hmem hreply hcode
      refine ⟨past, e, before, after, hstep, haccepted, ?_⟩
      rwa [← show batch.msgs.ids = batchIds chainId settings m.now batch.behalf.sender s from
        hsending.ids_eq hbatch]

/-- What a batch signs for a sender is what the client has simulated for it before, all of it with success and in one
sequence; and when the chain accepts it, the rows that become broadcasted are exactly those that were signed for. -/
theorem faithful_of_batch {E : Type} (others : Collaborators E) (chainId : String) (env : E) (store : Store)
    (hs : store.Lawful) (settings : Settings) (now : Int)
    (hclock : ∀ time ∈ clockReadings
      (events (World.session chainId others env store [.sendMsgBatch settings]).history), time = now) :
    Faithful chainId settings now store
      (events (World.session chainId others env store [.sendMsgBatch settings]).history) := by
  obtain ⟨⟨r, htakes⟩, hrecorded, _⟩ := course_of_command chainId others env store (.sendMsgBatch settings)
  obtain ⟨o, ho⟩ := takes_outcome htakes
  exact faithful_of_takes ho hs hrecorded.passes hclock

/-- The payment that an earlier batch has left started is signed together with the next one. -/
theorem faithful_of_halfStarted :
    (sentRows "chain" (limitedSettings 2) 0 "a12uel5l" halfStarted).map Row.id = [1, 2] ∧
      (callsFor "a12uel5l" (events
        (World.session "chain" obliging 0 halfStarted [.sendMsgBatch (limitedSettings 2)]).history)).any transacts =
          true ∧
      Faithful "chain" (limitedSettings 2) 0 halfStarted
        (events (World.session "chain" obliging 0 halfStarted [.sendMsgBatch (limitedSettings 2)]).history) :=
  ⟨by decide +kernel, by decide +kernel,
    faithful_of_batch obliging "chain" 0 halfStarted (lawful_session "chain" obliging 1 (lawful_payments 2) _)
      (limitedSettings 2) 0 (by decide +kernel)⟩

end ReportRelay.Dispatch
