import ReportRelay.Proofs.Dispatch.Leftovers

/-!
# Order of one sender's messages

The messages of a sender are meant to be broadcast in the order in which they were enqueued. They are, as long as a
batch has room for all that earlier batches have left started. A load of started messages takes only so many of
them, and a sender whose older message is crowded out may still get a newer one into the same batch.
-/

namespace ReportRelay.Dispatch

variable {chainId : String} {s s' : Store} {settings : Settings} {m : Makeup} {batch : SenderBatch}

/-- The last batch has no room for the message: older started messages take all its places. -/
def CrowdedOut (before : List Moment) (id : MsgId) : Prop :=
  ∃ limit rows, lastLoad (events before) = some (limit, rows) ∧ (rows.length : Int) = limit ∧
    ∀ row ∈ rows, row.id < id

/-- The messages of a sender that a broadcast passes over: each is older than one that is sent, still has to be
sent, and is left out. -/
def passedOver (behalf : Behalf) (store : Store) : List MsgId :=
  (store.rows.filter fun row => row.sender? = some behalf.sender ∧ (∃ id ∈ behalf.ids, row.id < id) ∧
    row.id ∉ behalf.ids ∧ (row.state = .unstarted ∨ row.state = .started)).map Row.id

/-- All senders' messages are broadcast in the order of their ids, and none is passed over. -/
structure InOrder (history : List Moment) : Prop where
  ascending : ∀ moment ∈ history, ∀ behalf, sent? moment.event = some behalf →
    behalf.ids.Pairwise (· < ·)
  passedOver : ∀ moment ∈ history, ∀ behalf, sent? moment.event = some behalf →
    passedOver behalf moment.store = []
  earlier : ∀ before moment after behalf, history = before ++ moment :: after →
    sent? moment.event = some behalf → ∀ other ∈ after, ∀ behalf', sent? other.event = some behalf' →
    behalf'.sender = behalf.sender → ∀ i ∈ behalf'.ids, ∀ j ∈ behalf.ids, i < j → i ∈ behalf.ids

/-- Whenever something is broadcast, the batch had room for all older messages of its sender. -/
def Roomy (history : List Moment) : Prop :=
  ∀ before moment after behalf, history = before ++ moment :: after → sent? moment.event = some behalf →
    ∀ row ∈ moment.store.rows, row.sender? = some behalf.sender → (∃ id ∈ behalf.ids, row.id < id) →
      row.state = .started → ¬CrowdedOut before row.id

/-! ## Sessions -/

/-- What is known of a broadcast: its messages are in order, and those that it leaves out are crowded out. -/
structure Fair (before : List Moment) (moment : Moment) (behalf : Behalf) : Prop where
  ascending : behalf.ids.Pairwise (· < ·)
  bounded : ∀ id ∈ behalf.ids, id ≤ moment.store.lastId
  leftOut : ∀ row ∈ moment.store.rows, row.sender? = some behalf.sender → ∀ id ∈ behalf.ids,
    row.id < id → row.id ∉ behalf.ids → row.state.isSpent = false →
      row.state = .started ∧ CrowdedOut before row.id
  apart : ∀ i, CrowdedOut before i → ∀ j ∈ behalf.ids, i < j → i ∉ behalf.ids

/-- At some later point the sender's message still has to be sent. -/
def Waits (id : MsgId) (sender : String) (store : Store) : Prop :=
  ∃ later, store.Evolves later ∧
    ∃ row ∈ later.rows, row.id = id ∧ row.sender? = some sender ∧ row.state.isSpent = false

theorem MadeUp.fair (h : MadeUp chainId settings m s s') (hturn : InTurn chainId s)
    (hbatch : batch ∈ m.batches) {before : List Moment} {moment : Moment}
    (hlater : s'.Evolves moment.store)
    (hload : lastLoad (events before) = some (settings.maxMsgsPerBatch, m.leftover)) :
    Fair before moment batch.behalf where
  ascending := h.ascending_ids hturn hbatch
  bounded id hid := by
    obtain ⟨row, hrow, rfl, _⟩ := h.exists_row_of_mem_ids hbatch hid
    exact Int.le_trans (h.lawful.bounded row hrow) (h.evolves.trans hlater).lastId
  leftOut row hrow hsender id hid hlt hnot hstate := by
    obtain ⟨hstarted, hfull, holder⟩ :=
      h.crowded_of_left_out hturn hlater hbatch hrow hsender hid hlt hnot hstate
    exact ⟨hstarted, _, _, hload, hfull, holder⟩
  apart i hcrowded j hj hlt := by
    obtain ⟨limit, rows, hload', _, holder⟩ := hcrowded
    rw [hload] at hload'
    cases hload'
    exact h.not_mem_of_crowded hbatch holder hj hlt

/-- Every broadcast is fair, and a later broadcast of the same sender is of the same messages or of ones that were
still waiting. -/
def AllFair (history : List Moment) : Prop :=
  ∀ before moment after behalf, history = before ++ moment :: after → sent? moment.event = some behalf →
    Fair before moment behalf ∧ ∀ other ∈ after, ∀ behalf', sent? other.event = some behalf' →
      behalf'.sender = behalf.sender →
        behalf' = behalf ∨ ∀ i ∈ behalf'.ids, Waits i behalf'.sender moment.store

theorem allFair_of_happens {start : Store} {history : List Moment} (hstart : InTurn chainId start)
    (h : Happens chainId start history s) : AllFair history := by
  intro before moment after behalf hsplit hsent
  induction h generalizing after with
  | nothing =>
    cases before <;> cases hsplit
  | @command ms ns s s' command r hhappens takes recorded ih =>
    have hturn := inTurn_of_happens hstart hhappens
    have hbroadcasts := broadcasts_of_command hturn (takes_command takes) recorded
    rcases exists_of_append_eq_append hsplit with ⟨xs, rfl, hns⟩ | ⟨xs, rfl, hms⟩
    · rcases hbroadcasts with hsilent | ⟨settings, m, s₀, s₁, _, hturn₀, hmade, hall⟩
      · rw [hsilent moment (hns ▸ List.mem_append_right _ List.mem_cons_self)] at hsent
        cases hsent
      · obtain ⟨⟨batch, hbatch, rfl⟩, hlater, hload⟩ := hall xs moment after behalf hns hsent
        have hload' : lastLoad (events (ms ++ xs)) = some (settings.maxMsgsPerBatch, m.leftover) := by
          rw [events, List.map_append]
          exact lastLoad_append_of_some hload
        refine ⟨hmade.fair hturn₀ hbatch hlater hload', fun other hother behalf' hsent' hsender => .inl ?_⟩
        obtain ⟨ys, zs, rfl⟩ := List.append_of_mem hother
        obtain ⟨⟨batch', hbatch', rfl⟩, _⟩ := hall (xs ++ moment :: ys) other zs behalf'
          (by rw [hns, List.append_assoc, List.cons_append]) hsent'
        have hnodup := (List.nodup_append.1 hmade.parted.nodup_senders).1
        rw [List.inj_on_of_nodup_map hnodup hbatch' hbatch hsender]
    · obtain ⟨hfair, hothers⟩ := ih xs hms
      refine ⟨hfair, fun other hother behalf' hsent' hsender => ?_⟩
      rcases List.mem_append.1 hother with hother | hother
      · exact hothers other hother behalf' hsent' hsender
      · rcases hbroadcasts with hsilent | ⟨settings, m, s₀, s₁, hevolves, _, hmade, hall⟩
        · rw [hsilent other hother] at hsent'
          cases hsent'
        · obtain ⟨ys, zs, hns⟩ := List.append_of_mem hother
          obtain ⟨⟨batch', hbatch', rfl⟩, _⟩ := hall ys other zs behalf' hns hsent'
          have hrecorded := hhappens.recorded
          rw [hms] at hrecorded
          obtain ⟨⟨n, hn, hmeets⟩, hrest⟩ := hrecorded.split
          have hmoment := evolves_of_meets (evolves_of_passes hstart.lawful hn).lawful hmeets
          refine .inr fun i hi => ⟨s₀, (evolves_of_passes hmoment.lawful hrest.passes).trans hevolves, ?_⟩
          exact hmade.exists_row_of_mem_ids hbatch' hi

section
variable {history : List Moment} (hall : AllFair history)
include hall

theorem roomy_of_inOrder (h : InOrder history) : Roomy history := by
  intro before moment after behalf hsplit hsent row hrow hsender ⟨id, hid, hlt⟩ hstate hcrowded
  have hnone := h.passedOver moment (hsplit ▸ List.mem_append_right _ List.mem_cons_self) behalf hsent
  have hnot := (hall before moment after behalf hsplit hsent).1.apart row.id hcrowded id hid hlt
  have hmem : row.id ∈ passedOver behalf moment.store := by
    refine List.mem_map_of_mem (List.mem_filter.2 ⟨hrow, decide_eq_true ?_⟩)
    exact ⟨hsender, ⟨id, hid, hlt⟩, hnot, .inr hstate⟩
  rw [hnone] at hmem
  cases hmem

/-- A batch that had room takes with a message all older ones of the sender that still have to be sent. -/
theorem Roomy.mem_ids (h : Roomy history) {before after : List Moment} {moment : Moment} {behalf : Behalf}
    (hsplit : history = before ++ moment :: after) (hsent : sent? moment.event = some behalf) {row : Row}
    (hrow : row ∈ moment.store.rows) (hsender : row.sender? = some behalf.sender)
    (hstate : row.state.isSpent = false) {id : MsgId} (hid : id ∈ behalf.ids) (hlt : row.id < id) :
    row.id ∈ behalf.ids := by
  by_contra hnot
  obtain ⟨hstarted, hcrowded⟩ := (hall before moment after behalf hsplit hsent).1.leftOut row hrow hsender id
    hid hlt hnot hstate
  exact h before moment after behalf hsplit hsent row hrow hsender ⟨id, hid, hlt⟩ hstarted hcrowded

theorem inOrder_of_roomy (h : Roomy history) : InOrder history where
  ascending moment hmoment behalf hsent := by
    obtain ⟨before, after, hsplit⟩ := List.append_of_mem hmoment
    exact (hall before moment after behalf hsplit hsent).1.ascending
  passedOver moment hmoment behalf hsent := by
    obtain ⟨before, after, hsplit⟩ := List.append_of_mem hmoment
    refine List.map_eq_nil_iff.2 (List.filter_eq_nil_iff.2 fun row hrow hcond => ?_)
    obtain ⟨hsender, ⟨id, hid, hlt⟩, hnot, hstate⟩ := of_decide_eq_true hcond
    have hunspent : row.state.isSpent = false := by
      rcases hstate with hstate | hstate <;> rw [hstate] <;> rfl
    exact hnot (h.mem_ids hall hsplit hsent hrow hsender hunspent hid hlt)
  earlier before moment after behalf hsplit hsent other hother behalf' hsent' hsender i hi j hj hlt := by
    obtain ⟨hfair, hothers⟩ := hall before moment after behalf hsplit hsent
    rcases hothers other hother behalf' hsent' hsender with rfl | hwaits
    · exact hi
    obtain ⟨later, hlater, row', hrow', rfl, hsender', hstate⟩ := hwaits i hi
    -- ids are not given out twice, so a message with a smaller id was there before
    have hbound := Int.le_trans (Int.le_of_lt hlt) (hfair.bounded j hj)
    obtain ⟨row, hrow, hago⟩ := hlater.known row' hrow' hbound
    have hunspent : row.state.isSpent = false := by
      by_contra hspent
      rw [hago.state.isSpent (by simpa using hspent)] at hstate
      cases hstate
    have hrowSender : row.sender? = some behalf.sender := by rw [← hago.sender?, hsender', hsender]
    rw [hago.id] at hlt ⊢
    exact h.mem_ids hall hsplit hsent hrow hrowSender hunspent hj hlt

end

/-- The messages of every sender are broadcast in the order of their ids exactly in those sessions in which every
batch with a message of a sender has room for the older ones that are started. -/
theorem inOrder_iff_roomy {E : Type} (others : Collaborators E) (chainId : String) (env : E)
    (commands : List Command) :
    InOrder (World.session chainId others env emptyStore commands).history ↔
      Roomy (World.session chainId others env emptyStore commands).history := by
  obtain ⟨hhappens, _⟩ := happens_session chainId others env emptyStore commands
  have hall := allFair_of_happens inTurn_emptyStore hhappens
  exact ⟨roomy_of_inOrder hall, inOrder_of_roomy hall⟩

/-- A batch of one message: two batches fail, which leaves two messages started, and the third batch has room for
only one of them but sends a newer message with it. -/
theorem not_inOrder_of_full_batch : ¬InOrder (World.session "chain" obliging 2 emptyStore
    [.enqueue "contract" payment, .enqueue "contract" payment, .enqueue "contract" payment,
      .pollCycle (limitedSettings 1), .pollCycle (limitedSettings 1),
      .pollCycle (limitedSettings 1)]).history := by
  intro h
  have hsome : (World.session "chain" obliging 2 emptyStore
      [.enqueue "contract" payment, .enqueue "contract" payment, .enqueue "contract" payment,
        .pollCycle (limitedSettings 1), .pollCycle (limitedSettings 1),
        .pollCycle (limitedSettings 1)]).history.any (fun moment =>
          (sent? moment.event).any fun behalf => passedOver behalf moment.store ≠ []) = true := by
    decide +kernel
  obtain ⟨moment, hmoment, hpassed⟩ := List.any_eq_true.1 hsome
  obtain ⟨behalf, hsent, hne⟩ := (Option.any_eq_true _ _).1 hpassed
  exact of_decide_eq_true hne (h.passedOver moment hmoment behalf hsent)

end ReportRelay.Dispatch
