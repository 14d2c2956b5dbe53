import ReportRelay.Proofs.Dispatch.SenderFate

/-!
# One fate for a sender's batch

The messages that a sender sends together end up together. Which of the ways out of the pipeline was taken can be read
off the answers of the client: a step that may be tried again leaves all of them started, any other failure errors
all of them, and otherwise they are all confirmed in one transaction.
-/

namespace ReportRelay

/-- What is answered, if the reply is neither a failure nor a crash. -/
def Reply.answer? {α : Type} (reply : Reply α) : Option α :=
  match reply.outcome with
  | .ok (.ok a) => some a
  | _ => none

theorem Reply.answer?_of_ok {α : Type} {reply : Reply α} {a : α} (h : reply.outcome = .ok (.ok a)) :
    reply.answer? = some a := by
  rw [answer?, h]

theorem Reply.outcome_of_answer? {α : Type} {reply : Reply α} {a : α} (h : reply.answer? = some a) :
    reply.outcome = .ok (.ok a) := by
  unfold answer? at h
  split at h
  · next houtcome =>
    cases h
    exact houtcome
  · cases h

theorem Reply.answer?_of_failure {α : Type} {reply : Reply α} {failure : Failure}
    (h : reply.outcome = failure.result) : reply.answer? = none := by
  rw [answer?, h]
  cases failure <;> rfl

namespace Store

variable {store : Store} {chainId : String} {ids : List MsgId} {state : MsgState} {txHash : Option String}

/-- Every id is that of a row of the chain in the given state and with the given hash. -/
def AllWith (chainId : String) (ids : List MsgId) (state : MsgState) (txHash : Option String)
    (store : Store) : Prop :=
  ∀ id ∈ ids, ∃ row ∈ store.rows, row.chainId = chainId ∧ row.id = id ∧ row.state = state ∧ row.txHash = txHash

theorem AllIn.allWith (h : store.Lawful) (hall : store.AllIn chainId ids state)
    (hstate : state.hasTxHash = false) : store.AllWith chainId ids state none := by
  intro id hid
  obtain ⟨row, hrow, hchain, hrowId, hrowState⟩ := hall id hid
  have hchecked := h.checked row hrow
  rw [Row.Checked, hrowState, hstate] at hchecked
  refine ⟨row, hrow, hchain, hrowId, hrowState, ?_⟩
  simpa using hchecked.symm

theorem AllWith.allIn (h : store.AllWith chainId ids state txHash) : store.AllIn chainId ids state := by
  intro id hid
  obtain ⟨row, hrow, hchain, hrowId, hstate, _⟩ := h id hid
  exact ⟨row, hrow, hchain, hrowId, hstate⟩

theorem AllIn.broadcasted (h : store.AllIn chainId ids state) :
    (store.moved (named chainId ids) .broadcasted txHash).AllWith chainId ids .broadcasted txHash := by
  intro id hid
  obtain ⟨row, hrow, hchain, rfl, _⟩ := h id hid
  exact ⟨row.moveTo .broadcasted txHash, mem_moved.2 ⟨row, hrow, if_pos (named_iff.2 ⟨hchain, hid⟩)⟩,
    hchain, rfl, rfl, rfl⟩

theorem AllWith.confirmed (h : store.AllWith chainId ids state txHash) :
    (store.moved (named chainId ids) .confirmed none).AllWith chainId ids .confirmed txHash := by
  intro id hid
  obtain ⟨row, hrow, hchain, rfl, _, hhash⟩ := h id hid
  exact ⟨row.moveTo .confirmed none, mem_moved.2 ⟨row, hrow, if_pos (named_iff.2 ⟨hchain, hid⟩)⟩,
    hchain, rfl, rfl, hhash⟩

theorem AllWith.of_restrict {only : List MsgId} (h : (store.restrict only).AllWith chainId ids state txHash) :
    store.AllWith chainId ids state txHash := by
  intro id hid
  obtain ⟨row, hrow, hfacts⟩ := h id hid
  exact ⟨row, (mem_restrict.1 hrow).1, hfacts⟩

end Store

namespace Dispatch

variable {chainId : String} {s s' : Store} {settings : Settings} {gasPrice : DecCoin}
  {batch : SenderBatch} {behalf : Behalf} {es : List (Event interface)}
  {r : Except Crash (Except Error Unit)} {ids : List MsgId}

/-! ## What the calls tell -/

/-- A call fails that leaves the messages for a later batch. -/
def defers : Event interface → Bool
  | ⟨.client _ (.account _), reply⟩ => (Reply.answer? (α := Account) reply).isNone
  | ⟨.client _ (.simulateEach ..), reply⟩ => (Reply.answer? (α := Simulation) reply).isNone
  | ⟨.client _ .latestBlock, reply⟩ => (Reply.answer? (α := Nat) reply).isNone
  | _ => false

/-- A call has an answer that the messages cannot survive: one of them does not succeed in the simulation, the
transaction cannot be estimated, signed or broadcast, or it is rejected or fails on the chain. -/
def condemns (ids : List MsgId) : Event interface → Bool
  | ⟨.client _ (.simulateEach ..), reply⟩ => (Reply.answer? (α := Simulation) reply).any fun simulation =>
      ids.any fun id => id ∉ simulation.succeeded.map SimMsg.id
  | ⟨.client _ (.simulate ..), reply⟩ => (Reply.answer? (α := Nat) reply).isNone
  | ⟨.client _ (.createAndSign ..), reply⟩ => (Reply.answer? (α := Bytes) reply).isNone
  | ⟨.client _ (.broadcast _), reply⟩ =>
      (Reply.answer? (α := BroadcastResponse) reply).all fun response => response.code ≠ 0
  | ⟨.client _ (.lookUp _), reply⟩ => (Reply.answer? (α := TxResponse) reply).any fun response => response.code ≠ 0
  | _ => false

/-- A lookup finds the transaction, which has not failed. -/
def confirms : Event interface → Bool
  | ⟨.client _ (.lookUp _), reply⟩ => (Reply.answer? (α := TxResponse) reply).any fun response => response.code = 0
  | _ => false

/-- The call keeps the messages from being errored. -/
def saves (e : Event interface) : Bool :=
  defers e || confirms e

/-- The hash under which a transaction is broadcast. -/
def announced? : Event interface → Option String
  | ⟨.client _ (.broadcast _), reply⟩ => (Reply.answer? (α := BroadcastResponse) reply).map BroadcastResponse.txHash
  | _ => none

theorem saves_eq_false {e : Event interface} (hdefers : defers e = false) (hconfirms : confirms e = false) :
    saves e = false := by
  rw [saves, hdefers, hconfirms]
  rfl

theorem saves_of_ok {call : ClientCall} {reply : Reply call.Result} {a : call.Result}
    (h : reply.outcome = .ok (.ok a)) (hcall : ∀ txHash, call ≠ .lookUp txHash) :
    saves (called behalf call reply) = false := by
  have hanswer : reply.answer?.isNone = false := by rw [Reply.answer?_of_ok h, Option.isNone_some]
  refine saves_eq_false ?_ ?_
  · cases call with
    | account | simulateEach | latestBlock => exact hanswer
    | simulate | createAndSign | broadcast | lookUp => rfl
  · cases call with
    | account | simulateEach | latestBlock | simulate | createAndSign | broadcast => rfl
    | lookUp txHash => exact absurd rfl (hcall txHash)

/-! ## Confirmation -/

theorem Tried.outcome_cases {more : Nat} {replies : List (Reply TxResponse)}
    {found : Except Crash (Except Error TxResponse)} (h : Tried more replies found) :
    ∀ reply ∈ replies, reply.outcome = found ∨ ∃ e, reply.outcome = .ok (.error e) := by
  induction h with
  | last outcome _ => exact List.forall_mem_singleton.2 (.inl outcome)
  | again outcome _ ih => exact List.forall_mem_cons.2 ⟨.inr ⟨_, outcome⟩, ih⟩

/-- Lookups of which none finds an unfailed transaction confirm nothing. -/
theorem Tried.confirms_eq_false {more : Nat} {replies : List (Reply TxResponse)} {txHash : String}
    {found : Except Crash (Except Error TxResponse)} (h : Tried more replies found)
    (hfound : ∀ response, found = .ok (.ok response) → response.code ≠ 0) :
    ∀ e ∈ lookUps behalf txHash replies, confirms e = false := by
  intro e he
  obtain ⟨reply, hreply, rfl⟩ := List.mem_map.1 he
  rcases h.outcome_cases reply hreply with houtcome | ⟨e, houtcome⟩
  · match found, houtcome, hfound with
    | .ok (.ok response), houtcome, hfound =>
      simp [confirms, called, Reply.answer?_of_ok houtcome, hfound response rfl]
    | .ok (.error e), houtcome, _ => simp [confirms, called, Reply.answer?, houtcome]
    | .error c, houtcome, _ => simp [confirms, called, Reply.answer?, houtcome]
  · simp [confirms, called, Reply.answer?, houtcome]

theorem ConfirmCourse.defers_eq_false {txHash : String} (h : ConfirmCourse settings behalf txHash es r) :
    ∀ e ∈ es, defers e = false := by
  obtain ⟨_, hconcludes⟩ := h
  refine List.forall_mem_append.2 ⟨fun e he => ?_, ?_⟩
  · obtain ⟨reply, _, rfl⟩ := List.mem_map.1 he
    rfl
  · cases hconcludes with
    | crashed => exact List.forall_mem_nil _
    | confirmed | failed | unknown => exact List.forall_mem_singleton.2 rfl

/-- Messages that were broadcast are all confirmed or all errored, as the last lookup says. -/
theorem ConfirmCourse.settles {txHash : String} {hash : Option String}
    (h : ConfirmCourse settings behalf txHash es r) (hcalm : ∀ e ∈ es, CalmEvent e) (hs : s.Lawful)
    (hnodup : behalf.ids.Nodup) (hall : s.AllWith chainId behalf.ids .broadcasted hash)
    (hpass : Passes chainId s es s') :
    (s'.AllWith chainId behalf.ids .confirmed hash ∧ (∃ e ∈ es, confirms e = true) ∧
      ∀ ids, ∀ e ∈ es, condemns ids e = false) ∨
    s'.AllIn chainId behalf.ids .errored ∧ ∀ e ∈ es, confirms e = false := by
  have hcrash : ∀ c, r ≠ .error c := by
    rintro c rfl
    obtain ⟨e, he, hnot⟩ := h.exists_crash
    exact hnot (hcalm e he)
  obtain @⟨replies, found, moved, _, htried, hconcludes⟩ := h
  obtain ⟨m, hlookUps, hmove⟩ := passes_append.1 hpass
  obtain rfl : m = s := by
    have hcalls : ∀ e ∈ lookUps behalf txHash replies,
        ∃ call reply, e = called behalf call reply ∧ isBroadcast e = false := by
      intro e he
      obtain ⟨reply, _, rfl⟩ := List.mem_map.1 he
      exact ⟨_, _, rfl, rfl⟩
    exact passes_of_calls hcalls hlookUps
  cases hconcludes with
  | crashed => exact absurd rfl (hcrash _)
  | confirmed code =>
    obtain ⟨_, rfl⟩ := passes_moving hs hnodup hall.allIn hmove rfl nofun
    refine .inl ⟨hall.confirmed, ?_, ?_⟩
    · obtain ⟨reply, hreply, houtcome⟩ := htried.exists_reply
      refine ⟨_, List.mem_append_left _ (List.mem_map_of_mem hreply), ?_⟩
      simp [confirms, called, Reply.answer?_of_ok houtcome, code]
    · refine fun ids => List.forall_mem_append.2 ⟨fun e he => ?_, List.forall_mem_singleton.2 rfl⟩
      obtain ⟨reply, hreply, rfl⟩ := List.mem_map.1 he
      rcases htried.outcome_cases reply hreply with houtcome | ⟨e, houtcome⟩
      · simp [condemns, called, Reply.answer?_of_ok houtcome, code]
      · simp [condemns, called, Reply.answer?, houtcome]
  | failed code =>
    refine .inr ⟨passes_errored hs hnodup hall.allIn hmove rfl, ?_⟩
    refine List.forall_mem_append.2 ⟨htried.confirms_eq_false ?_, List.forall_mem_singleton.2 rfl⟩
    intro response hresponse
    cases hresponse
    exact code
  | unknown =>
    refine .inr ⟨passes_errored hs hnodup hall.allIn hmove rfl, ?_⟩
    exact List.forall_mem_append.2 ⟨htried.confirms_eq_false nofun, List.forall_mem_singleton.2 rfl⟩

/-! ## One sender -/

/-- The two updates of a batch with a failed simulation error all of its messages. -/
theorem Cancels.errored {p : MsgId → Bool} (h : Cancels (ids.filter fun id => !p id) (ids.filter p) es r)
    (hs : s.Lawful) (hnodup : ids.Nodup) (hstarted : s.AllIn chainId ids .started)
    (hpass : Passes chainId s es s') : s'.AllIn chainId ids .errored := by
  have hfailed : s.AllIn chainId (ids.filter fun id => !p id) .started :=
    fun id hid => hstarted id (List.mem_filter.1 hid).1
  have hnodupFailed : (ids.filter fun id => !p id).Nodup := hnodup.filter _
  cases h with
  | stuck =>
    obtain ⟨ha, _⟩ := passes_moving hs hnodupFailed hfailed hpass rfl nofun
    cases ha
  | alone none =>
    have hall := passes_errored hs hnodupFailed hfailed hpass rfl
    intro id hid
    refine hall id (List.mem_filter.2 ⟨hid, ?_⟩)
    have hnot := (List.filter_eq_nil_iff.1 none) id hid
    simpa using hnot
  | both =>
    rw [← List.singleton_append] at hpass
    obtain ⟨m, hfirst, hsecond⟩ := passes_append.1 hpass
    have hm := evolves_of_passes hs hfirst
    have hother : m.AllIn chainId (ids.filter p) .started := by
      intro id hid
      obtain ⟨hmem, hp⟩ := List.mem_filter.1 hid
      obtain ⟨row, hrow, hchain, rfl, hstate⟩ := hstarted id hmem
      refine ⟨row, mem_of_spares hs hfirst (List.forall_mem_singleton.2 ?_) hrow, hchain, rfl, hstate⟩
      intro ids' state txHash hmove
      cases hmove
      intro hid
      simp [hp] at hid
    have hall := passes_errored hs hnodupFailed hfailed hfirst rfl
    have hboth := passes_errored hm.lawful (hnodup.filter _) hother hsecond rfl
    intro id hid
    by_cases hp : p id = true
    · exact hboth id (List.mem_filter.2 ⟨hid, hp⟩)
    · obtain ⟨row, hrow, hchain, rfl, hstate⟩ := hall id (List.mem_filter.2 ⟨hid, by simpa using hp⟩)
      obtain ⟨row', hrow', hevolves⟩ := (evolves_of_passes hm.lawful hsecond).kept row hrow
      refine ⟨row', hrow', hevolves.chainId.trans hchain, hevolves.id, ?_⟩
      exact (hevolves.state.eq_of_isTerminal (by rw [hstate]; rfl)).trans hstate

/-- The event decides nothing about the messages. -/
structure Harmless (ids : List MsgId) (e : Event interface) : Prop where
  defers : defers e = false
  condemns : condemns ids e = false
  confirms : confirms e = false
  announced? : announced? e = none

theorem Harmless.saves_eq_false {e : Event interface} (h : Harmless ids e) : saves e = false :=
  Dispatch.saves_eq_false h.defers h.confirms

theorem harmless_account {sender : String} {reply : Reply Account} {account : Account}
    (h : reply.outcome = .ok (.ok account)) : Harmless ids (called behalf (.account sender) reply) :=
  ⟨by simp [called, defers, Reply.answer?_of_ok h], rfl, rfl, rfl⟩

theorem harmless_simulateEach {messages : List SimMsg} {sequence : Nat} {reply : Reply Simulation}
    {simulation : Simulation} (h : reply.outcome = .ok (.ok simulation))
    (succeeded : ∀ id ∈ ids, id ∈ simulation.succeeded.map SimMsg.id) :
    Harmless ids (called behalf (.simulateEach messages sequence) reply) := by
  refine ⟨?_, ?_, rfl, rfl⟩
  · simp [called, defers, Reply.answer?_of_ok h]
  · simpa [called, condemns, Reply.answer?_of_ok h] using succeeded

theorem harmless_simulate {messages : List Message} {sequence : Nat} {reply : Reply Nat} {gasUsed : Nat}
    (h : reply.outcome = .ok (.ok gasUsed)) :
    Harmless ids (called behalf (.simulate messages sequence) reply) :=
  ⟨rfl, by simp [called, condemns, Reply.answer?_of_ok h], rfl, rfl⟩

theorem harmless_latestBlock {reply : Reply Nat} {height : Nat} (h : reply.outcome = .ok (.ok height)) :
    Harmless ids (called behalf .latestBlock reply) :=
  ⟨by simp [called, defers, Reply.answer?_of_ok h], rfl, rfl, rfl⟩

theorem harmless_createAndSign {tx : UnsignedTx} {signer : Signer} {reply : Reply Bytes} {bytes : Bytes}
    (h : reply.outcome = .ok (.ok bytes)) : Harmless ids (called behalf (.createAndSign tx signer) reply) :=
  ⟨rfl, by simp [called, condemns, Reply.answer?_of_ok h], rfl, rfl⟩

theorem Signs.harmless {tx : UnsignedTx} {bytes : Bytes} (h : Signs settings gasPrice batch es tx bytes) :
    ∀ e ∈ es, Harmless batch.msgs.ids e := by
  cases h with
  | signed account_eq simulation_eq succeeded gasUsed_eq height_eq bytes_eq =>
    simp only [List.forall_mem_cons]
    exact ⟨harmless_account account_eq, harmless_simulateEach simulation_eq succeeded,
      harmless_simulate gasUsed_eq, harmless_latestBlock height_eq, harmless_createAndSign bytes_eq,
      List.forall_mem_nil _⟩

theorem Abandons.saves_eq_false {failure : Failure} (h : Abandons ids failure es r) :
    ∀ e ∈ es, saves e = false := by
  cases h with
  | crashed => exact List.forall_mem_nil _
  | failed => exact List.forall_mem_singleton.2 rfl

theorem Cancels.saves_eq_false {failed cancelled : List MsgId} (h : Cancels failed cancelled es r) :
    ∀ e ∈ es, saves e = false := by
  cases h with
  | stuck | alone => exact List.forall_mem_singleton.2 rfl
  | both => exact List.forall_mem_cons.2 ⟨rfl, List.forall_mem_singleton.2 rfl⟩

/-- All messages of a batch are in one state, and the calls tell which. -/
structure Settled (chainId : String) (ids : List MsgId) (calls : List (Event interface)) (store : Store) :
    Prop where
  deferred : calls.any defers = true → store.AllWith chainId ids .started none
  condemned : calls.any (condemns ids) = true → store.AllWith chainId ids .errored none
  unsaved : calls.any saves = false → store.AllWith chainId ids .errored none
  confirmed : calls.any defers = false → calls.any (condemns ids) = false → calls.any confirms = true →
    ∃ txHash, calls.findSome? announced? = some txHash ∧ store.AllWith chainId ids .confirmed (some txHash)

namespace Settled

theorem of_deferred (hs : s.Lawful) (hstarted : s.AllIn chainId ids .started)
    (hdefers : ∃ e ∈ es, defers e = true) (hcondemns : ∀ e ∈ es, condemns ids e = false) :
    Settled chainId ids es s := by
  have hall := hstarted.allWith hs rfl
  obtain ⟨e, he, hdefer⟩ := hdefers
  have hsome : es.any defers = true := List.any_eq_true.2 ⟨e, he, hdefer⟩
  have hsaved : es.any saves = true := List.any_eq_true.2 ⟨e, he, by rw [saves, hdefer, Bool.true_or]⟩
  have hnone : es.any (condemns ids) = false := List.any_eq_false.2 fun e he => by simp [hcondemns e he]
  refine ⟨fun _ => hall, fun hcondemned => ?_, fun hunsaved => ?_, fun hnoDefer => ?_⟩
  · rw [hnone] at hcondemned
    cases hcondemned
  · rw [hsaved] at hunsaved
    cases hunsaved
  · rw [hsome] at hnoDefer
    cases hnoDefer

theorem of_errored (hs : s.Lawful) (herrored : s.AllIn chainId ids .errored)
    (h : ∀ e ∈ es, saves e = false) : Settled chainId ids es s := by
  have hall := herrored.allWith hs rfl
  have hdefers : es.any defers = false :=
    List.any_eq_false.2 fun e he => by simp [(Bool.or_eq_false_iff.1 (h e he)).1]
  have hconfirms : es.any confirms = false :=
    List.any_eq_false.2 fun e he => by simp [(Bool.or_eq_false_iff.1 (h e he)).2]
  refine ⟨fun hdefer => ?_, fun _ => hall, fun _ => hall, fun _ _ hconfirm => ?_⟩
  · rw [hdefers] at hdefer
    cases hdefer
  · rw [hconfirms] at hconfirm
    cases hconfirm

theorem of_confirmed {txHash : String} (hconfirmed : s.AllWith chainId ids .confirmed (some txHash))
    (hannounced : es.findSome? announced? = some txHash) (hdefers : ∀ e ∈ es, defers e = false)
    (hcondemns : ∀ e ∈ es, condemns ids e = false) (hconfirms : ∃ e ∈ es, confirms e = true) :
    Settled chainId ids es s := by
  obtain ⟨e, he, hconfirm⟩ := hconfirms
  have hsaved : es.any saves = true := List.any_eq_true.2 ⟨e, he, by rw [saves, hconfirm, Bool.or_true]⟩
  have hnoDefer : es.any defers = false := List.any_eq_false.2 fun e he => by simp [hdefers e he]
  have hnoCondemn : es.any (condemns ids) = false := List.any_eq_false.2 fun e he => by simp [hcondemns e he]
  refine ⟨fun hdefer => ?_, fun hcondemned => ?_, fun hunsaved => ?_, fun _ _ _ => ⟨txHash, hannounced, hconfirmed⟩⟩
  · rw [hnoDefer] at hdefer
    cases hdefer
  · rw [hnoCondemn] at hcondemned
    cases hcondemned
  · rw [hsaved] at hunsaved
    cases hunsaved

theorem of_restrict {only : List MsgId} (h : Settled chainId ids es (s.restrict only)) :
    Settled chainId ids es s where
  deferred hdefers := (h.deferred hdefers).of_restrict
  condemned hcondemned := (h.condemned hcondemned).of_restrict
  unsaved hunsaved := (h.unsaved hunsaved).of_restrict
  confirmed hdefers hcondemns hconfirms := by
    obtain ⟨txHash, hannounced, hall⟩ := h.confirmed hdefers hcondemns hconfirms
    exact ⟨txHash, hannounced, hall.of_restrict⟩

end Settled

theorem failure_ne_crash {call : ClientCall} {reply : Reply call.Result} {failure : Failure}
    (hcalm : CalmEvent (called behalf call reply)) (h : reply.outcome = failure.result) :
    ∀ c, failure ≠ .crash c := by
  rintro c rfl
  exact not_calmEvent h hcalm

/-- Before a broadcast, messages are left started for a later batch, or all are errored. -/
theorem Unsent.settled (h : Unsent settings gasPrice batch es r) (hcalm : ∀ e ∈ es, CalmEvent e) (hs : s.Lawful)
    (hnodup : batch.msgs.ids.Nodup) (hstarted : s.AllIn chainId batch.msgs.ids .started)
    (hpass : Passes chainId s es s') : Settled chainId batch.msgs.ids es s' := by
  cases h with
  | noAccount failed =>
    obtain rfl := passes_called hpass
    refine .of_deferred hs hstarted ⟨_, List.mem_cons_self, ?_⟩ (List.forall_mem_singleton.2 rfl)
    simp [called, defers, Reply.answer?_of_failure failed]
  | notSimulated account_eq failed =>
    obtain rfl := passes_called (passes_called hpass)
    refine .of_deferred hs hstarted ⟨_, .tail _ (.head _), ?_⟩
      (List.forall_mem_cons.2 ⟨rfl, List.forall_mem_singleton.2 ?_⟩)
    · simp [called, defers, Reply.answer?_of_failure failed]
    · simp [called, condemns, Reply.answer?_of_failure failed]
  | cancelled account_eq simulation_eq missing cancels =>
    refine .of_errored (evolves_of_passes hs hpass).lawful ?_ ?_
    · simp only [decide_not] at cancels
      exact cancels.errored hs hnodup hstarted (passes_called (passes_called hpass))
    · simp only [List.forall_mem_cons]
      exact ⟨saves_of_ok account_eq nofun, saves_of_ok simulation_eq nofun, cancels.saves_eq_false⟩
  | notEstimated account_eq simulation_eq succeeded failed abandons =>
    have hcalmFailed := hcalm _ (.tail _ (.tail _ (.head _)))
    refine .of_errored (evolves_of_passes hs hpass).lawful ?_ ?_
    · exact abandons.errored (failure_ne_crash hcalmFailed failed) hs hnodup hstarted
        (passes_called (passes_called (passes_called hpass)))
    · simp only [List.forall_mem_cons]
      exact ⟨saves_of_ok account_eq nofun, saves_of_ok simulation_eq nofun, rfl, abandons.saves_eq_false⟩
  | noHeight account_eq simulation_eq succeeded gasUsed_eq failed =>
    obtain rfl := passes_called (passes_called (passes_called (passes_called hpass)))
    refine .of_deferred hs hstarted ⟨_, .tail _ (.tail _ (.tail _ (.head _))), ?_⟩ ?_
    · simp [called, defers, Reply.answer?_of_failure failed]
    · simp only [List.forall_mem_cons]
      exact ⟨rfl, (harmless_simulateEach simulation_eq succeeded).condemns, (harmless_simulate gasUsed_eq).condemns,
        rfl, List.forall_mem_nil _⟩
  | notSigned account_eq simulation_eq succeeded gasUsed_eq height_eq failed abandons =>
    have hcalmFailed := hcalm _ (.tail _ (.tail _ (.tail _ (.tail _ (.head _)))))
    refine .of_errored (evolves_of_passes hs hpass).lawful ?_ ?_
    · exact abandons.errored (failure_ne_crash hcalmFailed failed) hs hnodup hstarted
        (passes_called (passes_called (passes_called (passes_called (passes_called hpass)))))
    · simp only [List.forall_mem_cons]
      exact ⟨saves_of_ok account_eq nofun, saves_of_ok simulation_eq nofun, saves_of_ok gasUsed_eq nofun,
        saves_of_ok height_eq nofun, rfl, abandons.saves_eq_false⟩

theorem Broadcasts.saves_eq_false {tx : Bytes} {o : Except Crash (Except Error String)}
    (h : Broadcasts behalf tx es o) : ∀ e ∈ es, saves e = false := by
  cases h with
  | failed | rejected => exact List.forall_mem_singleton.2 rfl
  | unrecorded | recorded => exact List.forall_mem_cons.2 ⟨rfl, List.forall_mem_singleton.2 rfl⟩

/-- A broadcast that is recorded gives all messages the announced hash. -/
theorem Broadcasts.announced {tx : Bytes} {txHash : String} (h : Broadcasts behalf tx es (.ok (.ok txHash)))
    (hs : s.Lawful) (hstarted : s.AllIn chainId behalf.ids .started) (hpass : Passes chainId s es s') :
    s'.AllWith chainId behalf.ids .broadcasted (some txHash) ∧ (∀ ids, ∀ e ∈ es, condemns ids e = false) ∧
      es.findSome? announced? = some txHash := by
  generalize ho : (.ok (.ok txHash) : Except Crash (Except Error String)) = o at h
  cases h with
  | @failed _ failure => cases failure <;> cases ho
  | rejected | unrecorded => cases ho
  | @recorded reply response response_eq code =>
    cases ho
    refine ⟨?_, ?_, ?_⟩
    · obtain ⟨rfl, _⟩ := passes_movingAll hs (passes_called hpass)
      exact hstarted.broadcasted
    · refine fun ids => List.forall_mem_cons.2 ⟨?_, List.forall_mem_singleton.2 rfl⟩
      simp [Dispatch.called, condemns, Reply.answer?_of_ok response_eq, code]
    · have hannounced : announced? (Dispatch.called behalf (.broadcast tx) reply) = some response.txHash := by
        simp [Dispatch.called, announced?, Reply.answer?_of_ok response_eq]
      simp [hannounced]

/-- What the calls of a sender's course tell is what becomes of its messages, all of them. -/
theorem SenderCourse.settled (h : SenderCourse settings gasPrice batch es r) (hcalm : ∀ e ∈ es, CalmEvent e)
    (hs : s.Lawful) (hnodup : batch.msgs.ids.Nodup) (hstarted : s.AllIn chainId batch.msgs.ids .started)
    (hpass : Passes chainId s es s') : Settled chainId batch.msgs.ids es s' := by
  cases h with
  | unsent unsent => exact unsent.settled hcalm hs hnodup hstarted hpass
  | @refused es fs gs tx bytes failure r signs broadcasts abandons =>
    have hlawful := (evolves_of_passes hs hpass).lawful
    obtain ⟨m, hsigns, hpass⟩ := passes_append.1 hpass
    obtain ⟨n, hbroadcasts, habandons⟩ := passes_append.1 hpass
    obtain rfl := passes_of_calls signs.called hsigns
    obtain rfl := broadcasts.passes_failure hbroadcasts
    refine .of_errored hlawful (abandons.errored ?_ hs hnodup hstarted habandons) ?_
    · rintro c rfl
      obtain ⟨e, he, hcrash⟩ := broadcasts.exists_crash
      exact hcrash (hcalm e (List.mem_append_right _ (List.mem_append_left _ he)))
    · simp only [List.forall_mem_append]
      exact ⟨fun e he => (signs.harmless e he).saves_eq_false, broadcasts.saves_eq_false,
        abandons.saves_eq_false⟩
  | @sent es fs gs tx bytes txHash r signs broadcasts confirms =>
    have hlawful := (evolves_of_passes hs hpass).lawful
    obtain ⟨m, hsigns, hpass⟩ := passes_append.1 hpass
    obtain ⟨n, hbroadcasts, hconfirms⟩ := passes_append.1 hpass
    obtain rfl := passes_of_calls signs.called hsigns
    obtain ⟨hall, hcondemns, hannounced⟩ := broadcasts.announced hs hstarted hbroadcasts
    have hcalmConfirms : ∀ e ∈ gs, CalmEvent e :=
      fun e he => hcalm e (List.mem_append_right _ (List.mem_append_right _ he))
    have hrecorded := (evolves_of_passes hs hbroadcasts).lawful
    rcases confirms.settles hcalmConfirms hrecorded hnodup hall hconfirms with
      ⟨hconfirmed, ⟨e, he, hconfirm⟩, hnone⟩ | ⟨herrored, hnone⟩
    · have hfirst : (es ++ (fs ++ gs)).findSome? announced? = some txHash := by
        rw [List.findSome?_append, List.findSome?_append, hannounced,
          List.findSome?_eq_none_iff.2 fun e he => (signs.harmless e he).announced?]
        rfl
      refine .of_confirmed hconfirmed hfirst ?_ ?_
        ⟨e, List.mem_append_right _ (List.mem_append_right _ he), hconfirm⟩
      · simp only [List.forall_mem_append]
        exact ⟨fun e he => (signs.harmless e he).defers,
          fun e he => (Bool.or_eq_false_iff.1 (broadcasts.saves_eq_false e he)).1, confirms.defers_eq_false⟩
      · simp only [List.forall_mem_append]
        exact ⟨fun e he => (signs.harmless e he).condemns, hcondemns _, hnone _⟩
    · refine .of_errored hlawful herrored ?_
      simp only [List.forall_mem_append]
      exact ⟨fun e he => (signs.harmless e he).saves_eq_false, broadcasts.saves_eq_false,
        fun e he => saves_eq_false (confirms.defers_eq_false e he) (hnone e he)⟩

end Dispatch

end ReportRelay
