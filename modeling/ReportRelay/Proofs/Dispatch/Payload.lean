import ReportRelay.Proofs.Dispatch.Settlement

/-!
# What the calls for a sender pass on

The client is told a sender's messages three times: twice to simulate them and once to sign them. All calls up to the
broadcast follow one script, as far as it is gone through, and its messages are those of the rows that the sender has
to send.
-/

namespace ReportRelay

/-- The row's message can be read, and it is this one. -/
def Row.Holds (row : Row) (message : Message) : Prop :=
  Message.decode row.typeUrl row.raw = .ok message

namespace Dispatch

variable {chainId sender : String} {s s' made n : Store} {settings : Settings} {gasPrice : DecCoin} {i : Intake}
  {m : Makeup} {g : SenderMsgs} {batch : SenderBatch} {behalf : Behalf} {t u v w es : List (Event interface)}
  {r : Except Crash (Except Error Unit)}

/-! ## Rows -/

/-- What is passed on of a row. -/
structure Conveys (row : Row) (msg : SimMsg) : Prop where
  id : msg.id = row.id
  holds : row.Holds msg.message

theorem Drawn.conveys (h : Drawn chainId settings i s) (hg : g ∈ bySender (i.pending settings)) :
    List.Forall₂ Conveys (sentRows chainId settings i.now g.sender s) (g.msgs.map fun p => ⟨p.id, p.message⟩) := by
  rw [← h.rows_eq hg, List.forall₂_map_left_iff, List.forall₂_map_right_iff]
  refine List.forall₂_same.2 fun p hp => ?_
  obtain ⟨_, _, hdecode⟩ := Intake.row_of_pending (mem_msgs hg hp).1
  exact ⟨rfl, hdecode⟩

theorem SenderBatch.messages_eq (batch : SenderBatch) : batch.messages = batch.simMsgs.map SimMsg.message := by
  rw [SenderBatch.messages, SenderBatch.simMsgs, List.map_map]
  rfl

/-! ## The script -/

/-- The call, unless it only looks a transaction up. -/
def request? : Event interface → Option ClientCall
  | ⟨.client _ (.lookUp _), _⟩ => none
  | ⟨.client _ call, _⟩ => some call
  | _ => none

def requests (t : List (Event interface)) : List ClientCall :=
  t.filterMap request?

/-- What the client is asked for a sender, one call after the other. -/
def script (sender : String) (msgs : List SimMsg) (account : Account) (tx : UnsignedTx) (signer : Signer)
    (bytes : Bytes) : List ClientCall :=
  [.account sender, .simulateEach msgs account.sequence, .simulate tx.messages account.sequence, .latestBlock,
    .createAndSign tx signer, .broadcast bytes]

@[simp] theorem requests_append : requests (u ++ v) = requests u ++ requests v :=
  List.filterMap_append

theorem requests_lookUps {txHash : String} {replies : List (Reply TxResponse)} :
    requests (lookUps behalf txHash replies) = [] := by
  refine List.filterMap_eq_nil_iff.2 fun e he => ?_
  obtain ⟨reply, _, rfl⟩ := List.mem_map.1 he
  rfl

theorem Abandons.requests_eq_nil {ids : List MsgId} {failure : Failure} (h : Abandons ids failure es r) :
    requests es = [] := by
  cases h <;> rfl

theorem Cancels.requests_eq_nil {failed cancelled : List MsgId} (h : Cancels failed cancelled es r) :
    requests es = [] := by
  cases h <;> rfl

theorem ConfirmCourse.requests_eq_nil {txHash : String} (h : ConfirmCourse settings behalf txHash es r) :
    requests es = [] := by
  obtain ⟨_, hconcludes⟩ := h
  rw [requests_append, requests_lookUps, List.nil_append]
  cases hconcludes <;> rfl

theorem Broadcasts.requests_eq {tx : Bytes} {o : Except Crash (Except Error String)}
    (h : Broadcasts behalf tx es o) : requests es = [.broadcast tx] := by
  cases h <;> rfl

theorem Signs.exists_script {tx : UnsignedTx} {bytes : Bytes} (h : Signs settings gasPrice batch es tx bytes) :
    ∃ account, tx.messages = batch.messages ∧ requests es ++ [.broadcast bytes] =
      script batch.msgs.sender batch.simMsgs account tx batch.signer bytes := by
  cases h
  exact ⟨_, rfl, rfl⟩

theorem Unsent.exists_script (h : Unsent settings gasPrice batch es r) : ∃ account tx bytes,
    tx.messages = batch.messages ∧
      requests es <+: script batch.msgs.sender batch.simMsgs account tx batch.signer bytes := by
  -- what has not been asked for may be anything
  let nobody : Account := ⟨0, 0⟩
  cases h with
  | noAccount => exact ⟨nobody, batch.unsignedTx settings gasPrice nobody 0 0, [], rfl, _, rfl⟩
  | @notSimulated account => exact ⟨account, batch.unsignedTx settings gasPrice account 0 0, [], rfl, _, rfl⟩
  | @cancelled account _ _ _ es _ _ _ _ cancels =>
    refine ⟨account, batch.unsignedTx settings gasPrice account 0 0, [], rfl, ?_⟩
    change requests ([_, _] ++ es) <+: _
    rw [requests_append, cancels.requests_eq_nil, List.append_nil]
    exact ⟨_, rfl⟩
  | @notEstimated account _ _ _ _ _ es _ _ _ _ _ abandons =>
    refine ⟨account, batch.unsignedTx settings gasPrice account 0 0, [], rfl, ?_⟩
    change requests ([_, _, _] ++ es) <+: _
    rw [requests_append, abandons.requests_eq_nil, List.append_nil]
    exact ⟨_, rfl⟩
  | @noHeight account _ gasUsed =>
    exact ⟨account, batch.unsignedTx settings gasPrice account gasUsed 0, [], rfl, _, rfl⟩
  | @notSigned account _ gasUsed height _ _ _ _ _ _ es _ _ _ _ _ _ _ abandons =>
    refine ⟨account, batch.unsignedTx settings gasPrice account gasUsed height, [], rfl, ?_⟩
    change requests ([_, _, _, _, _] ++ es) <+: _
    rw [requests_append, abandons.requests_eq_nil, List.append_nil]
    exact ⟨_, rfl⟩

/-- A sender's course goes through the script as far as it gets. -/
theorem SenderCourse.exists_script (h : SenderCourse settings gasPrice batch es r) : ∃ account tx bytes,
    tx.messages = batch.messages ∧
      requests es <+: script batch.msgs.sender batch.simMsgs account tx batch.signer bytes := by
  have hscripted {es fs gs : List (Event interface)} {tx : UnsignedTx} {bytes : Bytes}
      {o : Except Crash (Except Error String)} (signs : Signs settings gasPrice batch es tx bytes)
      (broadcasts : Broadcasts batch.behalf bytes fs o) (hgs : requests gs = []) : ∃ account tx bytes,
        tx.messages = batch.messages ∧
          requests (es ++ (fs ++ gs)) <+: script batch.msgs.sender batch.simMsgs account tx batch.signer bytes := by
    obtain ⟨account, hmessages, hscript⟩ := signs.exists_script
    have hasked : requests (es ++ (fs ++ gs)) = requests es ++ [.broadcast bytes] := by
      rw [requests_append, requests_append, broadcasts.requests_eq, hgs, List.append_nil]
    exact ⟨account, tx, bytes, hmessages, [], by rw [hasked, hscript, List.append_nil]⟩
  cases h with
  | unsent unsent => exact unsent.exists_script
  | refused signs broadcasts abandons => exact hscripted signs broadcasts abandons.requests_eq_nil
  | sent signs broadcasts confirms => exact hscripted signs broadcasts confirms.requests_eq_nil

theorem SenderEvent.request?_eq_none {e : Event interface} (h : SenderEvent behalf e)
    (hnot : isCallFor behalf.sender e = false) : request? e = none := by
  cases h with
  | plain plain =>
    cases plain with
    | call => simp [isCallFor, called] at hnot
    | errored => rfl
  | broadcast => simp [isCallFor, called] at hnot
  | broadcasted | confirmed => rfl

theorem requests_callsFor (h : ∀ e ∈ es, SenderEvent behalf e) :
    requests (callsFor behalf.sender es) = requests es := by
  unfold requests callsFor
  rw [List.filterMap_filter]
  refine List.filterMap_congr fun e he => ?_
  split_ifs with hcall
  · rfl
  · exact ((h e he).request?_eq_none (by simpa using hcall)).symm

/-! ## The part of one sender -/

/-- A batch that has made a plan and carries it out, until all senders have come to their ends or one has taken the
others down. -/
structure Sending (chainId : String) (settings : Settings) (m : Makeup) (gasPrice : DecCoin)
    (u w : List (Event interface)) (s made n : Store) : Prop where
  prepares : (prepare settings).Takes u (.ok (.ok (some ⟨m.batches, gasPrice⟩)))
  prepared : Passes chainId s u n
  clockRead_mem : clockRead m.now ∈ u
  madeUp : MadeUp chainId settings m s made
  starts : Passes chainId made (moves (starting m.batches) .started) n
  parts : ∃ us, Merge us w ∧ List.Forall₂ (HasBegun settings gasPrice) m.batches us ∧
    ((∀ e ∈ w, CalmEvent e) → List.Forall₂ (HasEnded settings gasPrice) m.batches us)

theorem cases_of_sending (h : (sendMsgBatch settings).Takes t r) (hs : s.Lawful) (hpass : Passes chainId s t s') :
    (∃ o, (prepare settings).Takes t o ∧ ∀ plan, o ≠ .ok (.ok (some plan))) ∨
      ∃ m gasPrice u w made n, t = u ++ w ∧ Sending chainId settings m gasPrice u w s made n ∧
        Passes chainId n w s' := by
  rcases cases_of_sendMsgBatch h with hnone | ⟨plan, u, w, o, rfl, hprepare, hall⟩
  · exact .inl hnone
  obtain ⟨n, hprepared, hsent⟩ := passes_append.1 hpass
  obtain ⟨m, opening, toPrices, gasPrice, made, rfl, hopens, hdeeds, hmade, hstarts⟩ :=
    exists_madeUp hprepare hs hprepared
  have hclock : clockRead m.now ∈ deeds u := by
    rw [hdeeds]
    exact List.mem_append_left _ hopens.mem_clockRead
  exact .inr ⟨m, gasPrice, u, w, made, n, rfl,
    ⟨hprepare, hprepared, List.mem_of_mem_filter hclock, hmade, hstarts, exists_parts_of_sends hall⟩, hsent⟩

theorem Sending.nodup_senders (h : Sending chainId settings m gasPrice u w s made n) :
    (m.batches.map fun batch => batch.msgs.sender).Nodup :=
  (List.nodup_append.1 h.madeUp.parted.nodup_senders).1

theorem Sending.callsFor_eq (h : Sending chainId settings m gasPrice u w s made n) :
    callsFor sender (u ++ v) = callsFor sender v := by
  rw [callsFor_append, ← callsFor_deeds, (takes_prepare h.prepares).callsFor_eq_nil, List.nil_append]

theorem Sending.ids_eq (h : Sending chainId settings m gasPrice u w s made n) (hbatch : batch ∈ m.batches) :
    batch.msgs.ids = batchIds chainId settings m.now batch.msgs.sender s :=
  h.madeUp.ids_eq (h.madeUp.parted.mem_batches hbatch)

theorem Sending.behalf_eq (h : Sending chainId settings m gasPrice u w s made n) (hbatch : batch ∈ m.batches) :
    batch.behalf = ⟨batch.msgs.sender, batchIds chainId settings m.now batch.msgs.sender s⟩ := by
  rw [← h.ids_eq hbatch]
  rfl

/-- Either no calls are made for a sender, or those that are made are of its own dialogue about its own rows. -/
theorem cases_of_callsFor (h : (sendMsgBatch settings).Takes t r) (hs : s.Lawful) (hpass : Passes chainId s t s')
    (sender : String) : callsFor sender t = [] ∨ ∃ now gasPrice batch x, clockRead now ∈ t ∧
      batch.behalf = ⟨sender, batchIds chainId settings now sender s⟩ ∧
      List.Forall₂ Conveys (sentRows chainId settings now sender s) batch.simMsgs ∧
      HasBegun settings gasPrice batch x ∧ callsFor sender t = callsFor sender (deeds x) := by
  rcases cases_of_sending h hs hpass with ⟨o, hprepare, _⟩ | ⟨m, gasPrice, u, w, made, n, rfl, hsending, _⟩
  · rw [← callsFor_deeds, (takes_prepare hprepare).callsFor_eq_nil]
    exact .inl rfl
  obtain ⟨us, hmerge, hbegun, _⟩ := hsending.parts
  rw [hsending.callsFor_eq]
  obtain ⟨x, v, hinterleave, hothers, ⟨batch, hbatch, rfl, hown⟩ | ⟨rfl, _⟩⟩ :=
    exists_part_of_merge (fun _ _ => HasBegun.event) hsending.nodup_senders hmerge hbegun sender
  · refine .inr ⟨m.now, gasPrice, batch, x, List.mem_append_left _ hsending.clockRead_mem, hsending.behalf_eq hbatch,
      hsending.madeUp.conveys (hsending.madeUp.parted.mem_batches hbatch), hown, ?_⟩
    rw [callsFor_deeds, callsFor_of_interleave hinterleave hothers]
  · rw [callsFor_of_interleave hinterleave hothers]
    exact .inl rfl

/-- What the client is asked for a sender follows the script, and it is about the sender's rows. -/
theorem exists_script_of_batch (h : (sendMsgBatch settings).Takes t r) (hs : s.Lawful)
    (hpass : Passes chainId s t s') (hsome : callsFor sender t ≠ []) :
    ∃ now msgs account tx signer bytes, clockRead now ∈ t ∧
      List.Forall₂ Conveys (sentRows chainId settings now sender s) msgs ∧ tx.messages = msgs.map SimMsg.message ∧
      requests (callsFor sender t) <+: script sender msgs account tx signer bytes := by
  obtain ⟨now, gasPrice, batch, x, hclock, hbehalf, hconveys, hbegun, hcalls⟩ :=
    (cases_of_callsFor h hs hpass sender).resolve_left hsome
  obtain ⟨v, o, hcourse⟩ := id hbegun
  obtain ⟨account, tx, bytes, hmessages, hscript⟩ := hcourse.exists_script
  obtain rfl : batch.behalf.sender = sender := congrArg Behalf.sender hbehalf
  refine ⟨now, batch.simMsgs, account, tx, batch.signer, bytes, hclock, hconveys, ?_, ?_⟩
  · rw [hmessages, batch.messages_eq]
  · rw [hcalls, requests_callsFor hbegun.event]
    exact (List.prefix_append _ _).trans (requests_append ▸ hscript)

end Dispatch

end ReportRelay
