import ReportRelay.Proofs.Dispatch.Turns

/-!
# What earlier batches leave started

A batch takes the started messages that its load finds, and with them one new message of each sender. What its
senders leave out was started by an earlier batch and did not fit into the load.
-/

namespace ReportRelay.Dispatch

variable {chainId : String} {s s' later : Store} {settings : Settings} {m : Makeup}
  {es u v : List (Event interface)} {batch : SenderBatch} {row : Row} {id : MsgId}

/-- A load of started messages that succeeds: its limit, and what is loaded. -/
def startedLoad? : Event interface → Option (Int × List Row)
  | ⟨.store (.load .started limit), (.ok rows : Except Error (List Row))⟩ => some (limit, rows)
  | _ => none

def lastLoad (es : List (Event interface)) : Option (Int × List Row) :=
  (es.filterMap startedLoad?).getLast?

/-! ## Within one batch -/

namespace MadeUp

theorem mem_leftover (h : MadeUp chainId settings m s s') (hbatch : batch ∈ m.batches) {p : Pending}
    (hp : p ∈ batch.msgs.started) : p.row ∈ m.leftover := by
  obtain ⟨hpending, _, hstarted⟩ := (mem_started (h.parted.mem_batches hbatch)).1 hp
  refine (List.mem_append.1 (Intake.row_of_pending hpending).1).resolve_right fun hright => ?_
  have hnew := (Store.mem_of_load h.unstarted hright).2.2
  rw [isStarted_iff.1 hstarted] at hnew
  cases hnew

/-- What an earlier batch has left started is older than the new message of the same sender. -/
theorem started_lt_next (h : MadeUp chainId settings m s s') (hturn : InTurn chainId s)
    (hbatch : batch ∈ m.batches) {p q : Pending} (hp : p ∈ batch.msgs.started)
    (hq : batch.msgs.next = some q) : p.id < q.id := by
  have hpmsgs : p ∈ batch.msgs.msgs := List.mem_append_left _ hp
  have hqmsgs : q ∈ batch.msgs.msgs := List.mem_append_right _ (Option.mem_toList.2 hq)
  obtain ⟨hprow, _, hpstate⟩ := Store.mem_of_load h.leftover (h.mem_leftover hbatch hp)
  obtain ⟨hqrow, _, hqstate⟩ := Store.mem_of_load h.unstarted (h.unstarted_of_next (h.parted.mem_batches hbatch) hq)
  by_contra hnot
  have hne : q.row.id ≠ p.row.id := by
    intro heq
    rw [h.lawful.eq_of_id_eq hqrow hprow heq, hpstate] at hqstate
    cases hqstate
  have hlt : q.row.id < p.row.id := Int.lt_iff_le_and_ne.2 ⟨Int.not_lt.1 hnot, hne⟩
  rcases hturn.turns q.row hqrow p.row hprow _ (h.sender?_of_mem_msgs hbatch hqmsgs)
    (h.sender?_of_mem_msgs hbatch hpmsgs) hlt hqstate with hstate | hstate <;>
  · rw [hpstate] at hstate
    cases hstate

theorem ascending_ids (h : MadeUp chainId settings m s s') (hturn : InTurn chainId s)
    (hbatch : batch ∈ m.batches) : batch.msgs.ids.Pairwise (· < ·) := by
  unfold SenderMsgs.ids SenderMsgs.msgs
  have hstarted := h.toDrawn.ascending_started (h.parted.mem_batches hbatch)
  refine List.pairwise_map.2 (List.pairwise_append.2 ⟨hstarted, ?_, fun p hp q hq => ?_⟩)
  · cases batch.msgs.next with
    | none => exact .nil
    | some p => exact List.pairwise_singleton _ _
  · exact h.started_lt_next hturn hbatch hp (Option.mem_toList.1 hq)

theorem exists_row_of_mem_ids (h : MadeUp chainId settings m s s') (hbatch : batch ∈ m.batches)
    (hid : id ∈ batch.msgs.ids) : ∃ row ∈ s.rows, row.id = id ∧
      row.sender? = some batch.msgs.sender ∧ row.state.isSpent = false := by
  obtain ⟨p, hp, rfl⟩ := List.mem_map.1 hid
  have hloaded := (h.mem_row hbatch hp).1
  refine ⟨p.row, (h.mem_loaded hloaded).1, rfl, h.sender?_of_mem_msgs hbatch hp, ?_⟩
  rcases List.mem_append.1 hloaded with hleft | hright
  · rw [(Store.mem_of_load h.leftover hleft).2.2]
    rfl
  · rw [(Store.mem_of_load h.unstarted hright).2.2]
    rfl

theorem exists_row_of_evolves (h : MadeUp chainId settings m s s') (hlater : s'.Evolves later)
    (hbatch : batch ∈ m.batches) (hid : id ∈ batch.msgs.ids) :
    ∃ row ∈ later.rows, row.id = id ∧ row.sender? = some batch.msgs.sender := by
  obtain ⟨old, hold, rfl, hsender, _⟩ := h.exists_row_of_mem_ids hbatch hid
  obtain ⟨row, hrow, hevolves⟩ := (h.evolves.trans hlater).kept old hold
  exact ⟨row, hrow, hevolves.id, hevolves.sender?.trans hsender⟩

theorem sender?_of_mem_ids (h : MadeUp chainId settings m s s') (hlater : s'.Evolves later)
    (hbatch : batch ∈ m.batches) (hrow : row ∈ later.rows) (hid : row.id ∈ batch.msgs.ids) :
    row.sender? = some batch.msgs.sender := by
  obtain ⟨other, hother, heq, hsender⟩ := h.exists_row_of_evolves hlater hbatch hid
  rwa [hlater.lawful.eq_of_id_eq hrow hother heq.symm]

/-- A message that its sender's transaction leaves out was left started by an earlier batch, and there was no
room for it. -/
theorem crowded_of_left_out (h : MadeUp chainId settings m s s') (hturn : InTurn chainId s)
    (hlater : s'.Evolves later) (hbatch : batch ∈ m.batches) (hrow : row ∈ later.rows)
    (hsender : row.sender? = some batch.msgs.sender) (hid : id ∈ batch.msgs.ids) (hlt : row.id < id)
    (hnot : row.id ∉ batch.msgs.ids) (hstate : row.state.isSpent = false) :
    row.state = .started ∧ (m.leftover.length : Int) = settings.maxMsgsPerBatch ∧
      ∀ other ∈ m.leftover, other.id < row.id := by
  obtain ⟨younger, hyounger, rfl, hyoungerSender, hyoungerState⟩ := h.exists_row_of_mem_ids hbatch hid
  have hbound := Int.le_trans (Int.le_of_lt hlt) (h.lawful.bounded younger hyounger)
  obtain ⟨old, hold, hago⟩ := (h.evolves.trans hlater).known row hrow hbound
  have holdSender : old.sender? = some batch.msgs.sender := by rw [← hago.sender?, hsender]
  have hunspent : ¬s'.Spent old.id := by
    rw [← hago.id]
    exact fun hspent => hlater.lawful.not_spent hrow hstate (hlater.spent hspent)
  have hchain := hturn.own old hold
  rw [hago.id] at hlt hnot ⊢
  cases holdState : old.state with
  | unstarted =>
    exfalso
    obtain ⟨p, hp, hpid⟩ := List.mem_map.1 hid
    rcases List.mem_append.1 hp with hpstarted | hpnext
    · obtain ⟨hprow, _, hpstate⟩ := Store.mem_of_load h.leftover (h.mem_leftover hbatch hpstarted)
      rw [← hpid] at hlt
      rcases hturn.turns old hold p.row hprow _ holdSender (h.sender?_of_mem_msgs hbatch hp) hlt holdState
        with hstate | hstate <;>
      · rw [hpstate] at hstate
        cases hstate
    · have hle := h.next_le hturn.own hbatch (Option.mem_toList.1 hpnext) hold holdSender holdState hunspent
      rw [hpid] at hle
      exact Int.not_le.2 hlt hle
  | started =>
    have hleft : old ∉ m.leftover := by
      intro hmem
      obtain ⟨q, hq, rfl, hqsender⟩ :=
        (h.spent_or_pending (List.mem_append_left _ hmem) holdSender).resolve_left hunspent
      refine hnot (List.mem_map.2 ⟨q, List.mem_append_left _ ?_, rfl⟩)
      exact (mem_started (h.parted.mem_batches hbatch)).2 ⟨hq, hqsender, isStarted_iff.2 holdState⟩
    refine ⟨?_, Store.full_of_not_mem h.lawful h.leftover hold hchain holdState hleft⟩
    have hmem := hago.state.mem_ahead
    rw [holdState] at hmem
    revert hmem hstate
    cases row.state <;> decide
  | broadcasted | confirmed | errored =>
    have hspent := hago.state.isSpent (by rw [holdState]; rfl)
    rw [hstate] at hspent
    cases hspent

theorem not_mem_of_crowded (h : MadeUp chainId settings m s s') (hbatch : batch ∈ m.batches) {i j : MsgId}
    (hcrowded : ∀ other ∈ m.leftover, other.id < i) (hj : j ∈ batch.msgs.ids) (hlt : i < j) :
    i ∉ batch.msgs.ids := by
  intro hi
  obtain ⟨p, hp, rfl⟩ := List.mem_map.1 hi
  obtain ⟨q, hq, rfl⟩ := List.mem_map.1 hj
  have hnext {r : Pending} (hr : r ∈ batch.msgs.msgs) (hle : p.id ≤ r.id) : r ∈ batch.msgs.next.toList := by
    refine (List.mem_append.1 hr).resolve_left fun hstarted => ?_
    exact Int.not_le.2 (hcrowded r.row (h.mem_leftover hbatch hstarted)) hle
  have hpnext := Option.mem_toList.1 (hnext hp (Int.le_refl _))
  have hqnext := Option.mem_toList.1 (hnext hq (Int.le_of_lt hlt))
  rw [Option.mem_def.1 hpnext] at hqnext
  cases hqnext
  exact Int.lt_irrefl _ hlt

end MadeUp

/-! ## The load behind a broadcast -/

theorem lastLoad_append_of_none (hv : ∀ e ∈ v, startedLoad? e = none) : lastLoad (u ++ v) = lastLoad u := by
  have hnone : v.filterMap startedLoad? = [] := List.filterMap_eq_nil_iff.2 hv
  rw [lastLoad, List.filterMap_append, hnone, List.append_nil]
  rfl

theorem lastLoad_append_of_some {load : Int × List Row} (hv : lastLoad v = some load) :
    lastLoad (u ++ v) = some load := by
  unfold lastLoad at hv ⊢
  rw [List.filterMap_append, List.getLast?_append, hv]
  rfl

theorem lastLoad_deeds (t : List (Event interface)) : lastLoad (deeds t) = lastLoad t := by
  unfold lastLoad deeds
  rw [List.filterMap_filter]
  congr 1
  refine List.filterMap_congr fun e _ => ?_
  obtain ⟨question, a⟩ := e
  cases question <;> rfl

theorem startedLoad?_of_sender {behalf : Behalf} {e : Event interface} (h : SenderEvent behalf e) :
    startedLoad? e = none := by
  cases h with
  | plain plain => cases plain <;> rfl
  | broadcast | broadcasted | confirmed => rfl

theorem Opens.lastLoad_eq (h : Opens settings m es) :
    lastLoad es = some (settings.maxMsgsPerBatch, m.leftover) := by
  obtain ⟨asks⟩ := h
  rw [← List.singleton_append, lastLoad_append_of_none]
  · rfl
  · simp only [List.forall_mem_cons, List.forall_mem_append]
    refine ⟨rfl, rfl, forall_mem_moves rfl, forall_mem_moves rfl, fun e he => ?_, forall_mem_moves rfl⟩
    obtain ⟨_, _, rfl⟩ := asks.eq_asking e he
    rfl

theorem exists_of_append_eq_append {α : Type} {as bs cs ds : List α} {d : α}
    (h : as ++ bs = cs ++ d :: ds) :
    (∃ xs, cs = as ++ xs ∧ bs = xs ++ d :: ds) ∨ ∃ xs, ds = xs ++ bs ∧ as = cs ++ d :: xs := by
  rcases List.append_eq_append_iff.1 h with ⟨xs, hcs, hbs⟩ | ⟨xs, has, hds⟩
  · exact .inl ⟨xs, hcs, hbs⟩
  · cases xs with
    | nil => exact .inl ⟨[], by simpa using has.symm, hds.symm⟩
    | cons x xs =>
      cases hds
      exact .inr ⟨xs, rfl, has⟩

theorem isDeed_of_sent? {e : Event interface} {behalf : Behalf} (h : sent? e = some behalf) :
    isDeed e = true := by
  obtain ⟨question, a⟩ := e
  cases question with
  | log | turn => cases h
  | client | signer | prices | now | store | storeAll => rfl

theorem sent?_of_deeds {t : List (Event interface)} (h : ∀ e ∈ deeds t, sent? e = none) :
    ∀ e ∈ t, sent? e = none :=
  forall_of_deeds (fun _ _ => rfl) (fun _ => rfl) h

/-- A command broadcasts nothing, or all its broadcasts come after a prelude in which a batch is made up, and are
made by the senders of that batch. -/
theorem CommandCourse.silent_or_sends (h : CommandCourse es) : (∀ e ∈ es, sent? e = none) ∨
    ∃ settings m toPrices sweep opening w, SweepCourse sweep ∧ Opens settings m opening ∧
      es = sweep ++ (opening ++ (moves (starting m.batches) .started ++ [pricing toPrices])) ++ w ∧
      ∀ e ∈ w, ∃ batch ∈ m.batches, SenderEvent batch.behalf e := by
  cases h with
  | quiet quiet => exact .inl fun e he => (quiet e he).sent?_eq_none
  | @cycle settings sweep fs sweeps batch =>
    cases batch with
    | quiet quiet =>
      exact .inl (List.forall_mem_append.2 ⟨sweeps.sent?_eq_none, fun e he => (quiet e he).sent?_eq_none⟩)
    | @opened m opening fs opens course =>
      have hopening : ∀ e ∈ opening, sent? e = none := fun e he => (opens.quiet e he).sent?_eq_none
      cases course with
      | stuck =>
        exact .inl (List.forall_mem_append.2 ⟨sweeps.sent?_eq_none,
          List.forall_mem_append.2 ⟨hopening, List.forall_mem_singleton.2 rfl⟩⟩)
      | unpriced =>
        exact .inl (List.forall_mem_append.2 ⟨sweeps.sent?_eq_none, List.forall_mem_append.2 ⟨hopening,
          List.forall_mem_append.2 ⟨forall_mem_moves rfl, List.forall_mem_singleton.2 rfl⟩⟩⟩)
      | @sent toPrices gasPrice w us merged begun calm =>
        refine .inr ⟨settings, m, toPrices, sweep, opening, w, sweeps, opens, ?_, exists_sender merged begun⟩
        simp only [List.append_assoc, List.singleton_append]

theorem exists_of_sent? {t prelude w : List (Event interface)} (ht : deeds t = prelude ++ w)
    (hprelude : ∀ e ∈ prelude, sent? e = none) {before after : List (Event interface)} {e : Event interface}
    (hsplit : t = before ++ e :: after) {behalf : Behalf} (hsent : sent? e = some behalf) :
    ∃ u, deeds before = prelude ++ u ∧ w = u ++ e :: deeds after := by
  have hdeed : deeds (e :: after) = e :: deeds after := List.filter_cons_of_pos (isDeed_of_sent? hsent)
  rw [hsplit, deeds_append, hdeed] at ht
  rcases exists_of_append_eq_append ht.symm with hfound | ⟨u, _, rfl⟩
  · exact hfound
  · rw [hprelude e (List.mem_append_right _ List.mem_cons_self)] at hsent
    cases hsent

/-- All broadcasts of one command come from one batch: it was made up earlier in the command, and its load of
started messages is the last one before. -/
theorem broadcasts_of_command {ns : List Moment} (hturn : InTurn chainId s)
    (hcourse : CommandCourse (deeds (events ns))) (hrecorded : Recorded chainId s ns s') :
    (∀ moment ∈ ns, sent? moment.event = none) ∨ ∃ settings m s₀ s₁, s.Evolves s₀ ∧
      InTurn chainId s₀ ∧ MadeUp chainId settings m s₀ s₁ ∧
      ∀ before moment after behalf, ns = before ++ moment :: after → sent? moment.event = some behalf →
        (∃ batch ∈ m.batches, batch.behalf = behalf) ∧ s₁.Evolves moment.store ∧
          lastLoad (events before) = some (settings.maxMsgsPerBatch, m.leftover) := by
  rcases hcourse.silent_or_sends with hsilent |
    ⟨settings, m, toPrices, sweep, opening, w, sweeps, opens, ht, hsenders⟩
  · exact .inl fun moment hmoment => sent?_of_deeds hsilent _ (List.mem_map_of_mem hmoment)
  have hpass := passes_deeds.2 hrecorded.passes
  rw [ht, List.append_assoc, List.append_assoc] at hpass
  obtain ⟨s₀, hsweep, hpass⟩ := passes_append.1 hpass
  obtain ⟨s₁, hopens, _⟩ := passes_append.1 hpass
  have hswept := hturn.passes hsweep sweeps.startsNone
  have hmade := opens.madeUp hswept.lawful hopens
  refine .inr ⟨settings, m, s₀, s₁, evolves_of_passes hturn.lawful hsweep, hswept, hmade,
    fun before moment after behalf hns hsent => ?_⟩
  have hprelude : ∀ e ∈ sweep ++ (opening ++ (moves (starting m.batches) .started ++ [pricing toPrices])),
      sent? e = none :=
    List.forall_mem_append.2 ⟨sweeps.sent?_eq_none, List.forall_mem_append.2
      ⟨fun e he => (opens.quiet e he).sent?_eq_none,
        List.forall_mem_append.2 ⟨forall_mem_moves rfl, List.forall_mem_singleton.2 rfl⟩⟩⟩
  have hevents : events ns = events before ++ moment.event :: events after := by
    rw [hns, events, List.map_append, List.map_cons]
    rfl
  obtain ⟨u, hbefore, rfl⟩ := exists_of_sent? ht hprelude hevents hsent
  refine ⟨?_, ?_, ?_⟩
  · obtain ⟨batch, hbatch, hevent⟩ := hsenders moment.event (List.mem_append_right _ List.mem_cons_self)
    exact ⟨batch, hbatch, (hevent.eq_of_sent? hsent).symm⟩
  · rw [hns] at hrecorded
    obtain ⟨⟨n, hn, hmeets⟩, _⟩ := hrecorded.split
    have hn' := passes_deeds.2 hn
    rw [hbefore, List.append_assoc, List.append_assoc] at hn'
    -- a course determines its end, so the batch is made up at the same two points as before
    obtain ⟨s₀', hsweep', hn'⟩ := passes_append.1 hn'
    obtain rfl := passes_unique hsweep hsweep'
    obtain ⟨s₁', hopens', hn'⟩ := passes_append.1 hn'
    obtain rfl := passes_unique hopens hopens'
    have hlater := evolves_of_passes hmade.evolves.lawful hn'
    exact hlater.trans (evolves_of_meets hlater.lawful hmeets)
  · rw [← lastLoad_deeds, hbefore, lastLoad_append_of_none fun e he => ?_]
    · refine lastLoad_append_of_some ?_
      rw [lastLoad_append_of_none]
      · exact opens.lastLoad_eq
      · exact List.forall_mem_append.2 ⟨forall_mem_moves rfl, List.forall_mem_singleton.2 rfl⟩
    · obtain ⟨batch, _, hevent⟩ := hsenders e (List.mem_append_left _ he)
      exact startedLoad?_of_sender hevent

end ReportRelay.Dispatch
