import ReportRelay.Proofs.Dispatch.Supply
import ReportRelay.Proofs.Dispatch.Sweep

/-!
# What a responsive cycle clears

In a cycle nobody has to succeed with everything. As long as nobody is taken down and a batch gets what it cannot do
without, every message that the cycle takes up is confirmed or errored at its end: the broadcasted rows that the sweep
loads, the started ones that the batch loads and, among the new ones, the oldest.
-/

namespace ReportRelay.Dispatch

variable {chainId token : String} {s s' : Store} {settings : Settings} {i : Intake} {m : Makeup}
  {t es : List (Event interface)} {ids : List MsgId} {id : MsgId} {row : Row} {e : Event interface}

/-! ## Responses -/

/-- Nobody is taken down, and a batch gets what it cannot do without: a price in the token, an account, a simulation
and the height of the chain. -/
def responds (token : String) : Event interface → Bool
  | ⟨.client behalf call, reply⟩ =>
    (Reply.outcome (α := call.Result) reply).isOk && !defers ⟨.client behalf call, reply⟩
  | e => supplies token e

theorem calmEvent_of_responds (h : responds token e = true) : CalmEvent e := by
  obtain ⟨question, a⟩ := e
  cases question with
  | client behalf call =>
    intro c hcrash
    simp [responds, hcrash, Except.isOk, Except.toBool] at h
  | signer | prices | now | turn | store | storeAll | log => trivial

theorem defers_of_responds (h : responds token e = true) : defers e = false := by
  obtain ⟨question, a⟩ := e
  cases question with
  | client behalf call =>
    simp only [responds, Bool.and_eq_true, Bool.not_eq_true'] at h
    exact h.2
  | signer | prices | now | turn | store | storeAll | log => rfl

theorem supplies_of_responds (h : responds token e = true) : supplies token e = true := by
  obtain ⟨question, a⟩ := e
  cases question with
  | client | now | turn | store | storeAll | log => rfl
  | signer | prices => exact h

/-! ## What a batch takes up -/

/-- All started rows that there is room for are among the messages, and so is the oldest new one. -/
structure Covers (chainId : String) (settings : Settings) (ids : List MsgId) (store : Store) : Prop where
  started : ∀ row ∈ store.oldest chainId .started settings.maxMsgsPerBatch, row.id ∈ ids
  first : ∀ row, (store.oldest chainId .unstarted settings.maxMsgsPerBatch).head? = some row → row.id ∈ ids

theorem Intake.mem_reach (hrow : row ∈ i.loaded) (hroom : ∀ p ∈ i.pending settings, p.row = row →
    ∃ g ∈ bySender (i.pending settings), row.id ∈ g.ids) : row.id ∈ i.reach settings := by
  cases hfind : find settings i.now row with
  | expired other =>
    obtain rfl := id_of_expired hfind
    exact names_expired _ (Intake.mem_expired.2 ⟨row, hrow, hfind⟩)
  | undecodable other e =>
    obtain rfl := id_of_undecodable hfind
    exact names_undecodable _ (Intake.mem_undecodable.2 ⟨row, hrow, e, hfind⟩)
  | pending p =>
    obtain ⟨hprow, _⟩ := find_of_pending hfind
    obtain ⟨g, hg, hid⟩ := hroom p (Intake.mem_pending.2 ⟨row, hrow, hfind⟩) hprow
    exact List.mem_append_right _ (List.mem_append_right _ (List.mem_flatMap.2 ⟨g, hg, hid⟩))

namespace Drawn

theorem mem_reach_of_leftover (h : Drawn chainId settings i s) (hrow : row ∈ i.leftover) :
    row.id ∈ i.reach settings := by
  refine Intake.mem_reach (List.mem_append_left _ hrow) ?_
  rintro p hp rfl
  obtain ⟨g, hg, hsender⟩ := exists_bySender hp
  have hstarted := isStarted_iff.2 (Store.mem_of_load h.leftover hrow).2.2
  refine ⟨g, hg, List.mem_map_of_mem (List.mem_append_left _ ?_)⟩
  exact (mem_started hg).2 ⟨hp, hsender.symm, hstarted⟩

theorem mem_reach_of_head (h : Drawn chainId settings i s) (hrow : i.unstarted.head? = some row) :
    row.id ∈ i.reach settings := by
  obtain ⟨rest, hunstarted⟩ := List.head?_eq_some_iff.1 hrow
  refine Intake.mem_reach (List.mem_append_right _ (List.mem_of_mem_head? hrow)) ?_
  rintro p hp rfl
  obtain ⟨g, hg, hsender⟩ := exists_bySender hp
  obtain ⟨_, hfind, _⟩ := Intake.row_of_pending hp
  have hnext : g.next = some p := by
    rw [h.next_eq hg, hunstarted, duePending, List.filterMap_cons_some (by rw [hfind]; rfl),
      List.filter_cons_of_pos (by simp [hsender])]
    rfl
  exact ⟨g, hg, List.mem_map_of_mem (List.mem_append_right _ (Option.mem_toList.2 hnext))⟩

theorem covers (h : Drawn chainId settings i s) : Covers chainId settings (i.reach settings) s := by
  constructor
  · intro row hrow
    rw [← (Store.load_ok h.leftover).2] at hrow
    exact h.mem_reach_of_leftover hrow
  · intro row hrow
    rw [← (Store.load_ok h.unstarted).2] at hrow
    exact h.mem_reach_of_head hrow

end Drawn

/-! ## What becomes of it -/

theorem Makeup.Parted.cases_of_reach (h : m.Parted settings) (hid : id ∈ m.reach settings) :
    id ∈ m.erroredIds settings ∨ ∃ batch ∈ m.batches, id ∈ batch.msgs.ids := by
  rcases List.mem_append.1 hid with hid | hid
  · exact .inl (List.mem_append_left _ hid)
  rcases List.mem_append.1 hid with hid | hid
  · exact .inl (List.mem_append_right _ (List.mem_append_left _ hid))
  obtain ⟨g, hg, hid⟩ := List.mem_flatMap.1 hid
  rcases List.mem_append.1 ((Interleave.perm h).mem_iff.1 hg) with hg | hg
  · obtain ⟨batch, hbatch, rfl⟩ := List.mem_map.1 hg
    exact .inr ⟨batch, hbatch, hid⟩
  · exact .inl (List.mem_append_right _ (List.mem_append_right _ (List.mem_flatMap.2 ⟨g, hg, hid⟩)))

theorem Opens.resolved (h : Opens settings m es) (hs : s.Lawful) (hpass : Passes chainId s es s')
    (hid : id ∈ m.erroredIds settings) : s'.Resolved id :=
  (h.errors hs hpass).allIn.resolved rfl id hid

theorem Settled.resolved {calls : List (Event interface)} (h : Settled chainId ids calls s)
    (hdefers : calls.any defers = false) : ∀ id ∈ ids, s.Resolved id := by
  -- an answer condemns the messages, or confirms them, or nothing saves them
  cases hcondemns : calls.any (condemns ids) with
  | true => exact (h.condemned hcondemns).allIn.resolved rfl
  | false =>
    cases hconfirms : calls.any confirms with
    | true =>
      obtain ⟨_, _, hall⟩ := h.confirmed hdefers hcondemns hconfirms
      exact hall.allIn.resolved rfl
    | false =>
      have hsaves : calls.any saves = false := by
        rw [List.any_eq_false] at hdefers hconfirms ⊢
        intro e he
        simp [saves, hdefers e he, hconfirms e he]
      exact (h.unsaved hsaves).allIn.resolved rfl

theorem Reaches.clears (h : Reaches settings i es) (hs : s.Lawful) (hpass : Passes chainId s es s')
    (hresolved : ∀ id ∈ i.reach settings, s'.Resolved id) : s.Clears (i.reach settings) s' where
  evolves := evolves_of_passes hs hpass
  lastId := by
    obtain ⟨fs, rfl, hnames⟩ := h
    obtain ⟨_, hpass⟩ := drawn_of_takenIn hs hpass
    exact lastId_of_names hnames hpass
  resolved := hresolved
  kept _ hrow hnot := h.mem_of_passes hs hpass hrow hnot

theorem resolved_of_sends {gasPrice : DecCoin} {made n : Store} {w : List (Event interface)}
    {us : List (List (Event interface))} (hmade : MadeUp chainId settings m s made) (hn : n.Lawful)
    (hstarts : Passes chainId made (moves (starting m.batches) .started) n) (hmerge : Merge us w)
    (hends : List.Forall₂ (fun batch x => (sendLogged settings gasPrice batch).Takes x (.ok ())) m.batches us)
    (hresponds : ∀ e ∈ w, responds token e = true) (hsent : Passes chainId n w s') {batch : SenderBatch}
    (hbatch : batch ∈ m.batches) (hid : id ∈ batch.msgs.ids) : s'.Resolved id := by
  have hnodup := (List.nodup_append.1 hmade.parted.nodup_senders).1
  obtain ⟨u, v, hinterleave, hothers, ⟨own, hown, hsender, htakes⟩ | ⟨_, hnobody⟩⟩ :=
    exists_part hnodup hmerge hends batch.msgs.sender
  · obtain rfl := List.inj_on_of_nodup_map hnodup hown hbatch hsender
    have hsettled := settled_of_takes hmade hown htakes hinterleave hothers
      (fun e he => calmEvent_of_responds (hresponds e he)) hn (hmade.allIn_started hstarts hown) hsent
    refine hsettled.resolved (List.any_eq_false.2 fun e he => ?_) id hid
    simp [defers_of_responds (hresponds e (List.mem_of_mem_filter he))]
  · exact absurd rfl (hnobody batch hbatch)

/-- A responsive batch clears all that is in its reach. -/
theorem clears_of_batch {r : Except Crash (Except Error Unit)} (h : (sendMsgBatch settings).Takes t r)
    (hresponds : ∀ e ∈ t, responds settings.gasToken e = true)
    (htimely : settings.msgTimeout ≤ Settings.longestTimeout) (hs : s.Lawful) (hpass : Passes chainId s t s') :
    ∃ ids, s.Clears ids s' ∧ Covers chainId settings ids s := by
  have hcalm := fun e he => calmEvent_of_responds (hresponds e he)
  have hdeeds := passes_deeds.2 hpass
  rcases takes_sendMsgBatch_calm h hcalm with
    ⟨o, hprepare, hnone⟩ | ⟨plan, u, w, us, rfl, hprepare, hmerge, hends⟩
  -- without a plan nobody can send, so all that is in reach has been errored
  · rcases (takes_prepare hprepare).cases_of_supplies
      (fun e he => supplies_of_responds (hresponds e (List.mem_of_mem_filter he))) htimely hs hdeeds with
      ⟨rfl, hstarted, hunstarted⟩ | ⟨m, hopens, hnobody⟩ | ⟨plan, rfl⟩
    · refine ⟨[], .nothing hs, ?_, ?_⟩
      · rw [hstarted]
        exact List.forall_mem_nil _
      · rw [hunstarted]
        nofun
    · refine ⟨m.reach settings, hopens.reaches.clears hs hdeeds fun id hid => ?_,
        (hopens.reaches.drawn hs hdeeds).covers⟩
      refine hopens.resolved hs hdeeds ((hopens.parted.cases_of_reach hid).resolve_right ?_)
      rintro ⟨batch, hbatch, _⟩
      rw [hnobody] at hbatch
      cases hbatch
    · exact absurd rfl (hnone plan)
  -- with a plan, what has not been errored belongs to somebody who sends
  · obtain ⟨n, hprepared, hsent⟩ := passes_append.1 hpass
    have hn := evolves_of_passes hs hprepared
    obtain ⟨m, opening, toPrices, gasPrice, made, rfl, hopens, hopening, hmade, hstarts⟩ :=
      exists_madeUp hprepare hs hprepared
    rw [deeds_append, hopening, List.append_assoc] at hdeeds
    have hreaches : Reaches settings m.toIntake
        (opening ++ (moves (starting m.batches) .started ++ [pricing toPrices] ++ deeds w)) :=
      hopens.reaches_of_senders (exists_sender_of_ends hmerge hends)
    refine ⟨m.reach settings, hreaches.clears hs hdeeds fun id hid => ?_, (hreaches.drawn hs hdeeds).covers⟩
    rcases hopens.parted.cases_of_reach hid with hid | ⟨batch, hbatch, hid⟩
    · obtain ⟨made', hmake, hrest⟩ := passes_append.1 hdeeds
      exact (evolves_of_passes (evolves_of_passes hs hmake).lawful hrest).resolved (hopens.resolved hs hmake hid)
    · exact resolved_of_sends hmade hn.lawful hstarts hmerge hends
        (fun e he => hresponds e (List.mem_append_right _ he)) hsent hbatch hid

/-! ## The cycle -/

/-- A calm sweep clears the rows that it loads. -/
theorem Sweeps.clears (h : Sweeps settings es) (hcalm : ∀ e ∈ es, CalmEvent e) (hs : s.Lawful)
    (hpass : Passes chainId s es s') :
    s.Clears ((s.oldest chainId .broadcasted settings.maxMsgsPerBatch).map Row.id) s' where
  evolves := evolves_of_passes hs hpass
  lastId := by
    cases h with
    | unloaded =>
      obtain ⟨_, rfl⟩ := loaded_of_passes hpass
      rfl
    | swept merged courses =>
      obtain ⟨_, hpass⟩ := loaded_of_passes hpass
      refine lastId_of_names (p := fun _ => True) (fun e he => ?_) hpass
      obtain ⟨_, tx, _, hevent⟩ := exists_transaction_of_event merged courses e he
      exact hevent.senderEvent.names.imp fun _ _ => trivial
  resolved := List.forall_mem_map.2 fun _ hrow => h.resolved hcalm hs hpass hrow
  kept _ hrow hnot := h.keeps hs hpass hrow fun hloaded => hnot (List.mem_map_of_mem hloaded)

theorem not_mem_ids_of_state {state state' : MsgState} {limit : Int} (hs : s.Lawful) (hne : state ≠ state')
    (hrow : row ∈ s.inState chainId state) : row.id ∉ (s.oldest chainId state' limit).map Row.id := by
  intro hmem
  obtain ⟨other, hother, hid⟩ := List.mem_map.1 hmem
  obtain ⟨hrowMem, _, rfl⟩ := Store.mem_inState.1 hrow
  obtain ⟨hotherMem, _, rfl⟩ := Store.mem_inState.1 (Store.mem_inState_of_oldest hother)
  obtain rfl := hs.eq_of_id_eq hotherMem hrowMem hid
  exact hne rfl

/-- A responsive cycle clears what its sweep loads and what its batch takes up, as they were before the cycle. -/
theorem clears_of_cycle {r : Except Crash Unit} (h : (pollCycle settings).Takes t r)
    (hresponds : ∀ e ∈ t, responds settings.gasToken e = true)
    (htimely : settings.msgTimeout ≤ Settings.longestTimeout) (hs : s.Lawful) (hpass : Passes chainId s t s') :
    ∃ ids, s.Clears ids s' ∧ Covers chainId settings ids s ∧
      ∀ row ∈ s.oldest chainId .broadcasted settings.maxMsgsPerBatch, row.id ∈ ids := by
  obtain ⟨u, v, o, o', hdeeds, hu, hv⟩ := exists_halves h
  obtain ⟨hu', hv'⟩ := forall_of_deeds_eq (fun _ _ => rfl) (fun _ => rfl) hdeeds hresponds
  rw [← passes_deeds, hdeeds] at hpass
  obtain ⟨mid, hswept, hbatch⟩ := passes_append.1 hpass
  have hcalm : ∀ e ∈ u, CalmEvent e := fun e he => calmEvent_of_responds (hu' e he)
  have hsweeps := takes_confirmAnyUnconfirmed_calm hu hcalm
  have hsweep := hsweeps.clears (fun e he => hcalm e (List.mem_of_mem_filter he)) hs hswept
  obtain ⟨ids, hclears, hcovers⟩ := clears_of_batch hv hv' htimely hsweep.evolves.lawful (passes_deeds.1 hbatch)
  -- the sweep leaves the started and the new rows as they are, so the batch loads what was there before
  have hsame {state : MsgState} (hstate : state.isTerminal = false) (hne : state ≠ .broadcasted) :
      mid.oldest chainId state settings.maxMsgsPerBatch = s.oldest chainId state settings.maxMsgsPerBatch := by
    rw [Store.oldest_eq_take, Store.oldest_eq_take,
      hsweep.inState_eq hs hstate fun row hrow => not_mem_ids_of_state hs hne hrow]
  refine ⟨_, hsweep.append hclears, ⟨fun row hrow => ?_, fun row hrow => ?_⟩, fun row hrow => ?_⟩
  · rw [← @hsame .started rfl nofun] at hrow
    exact List.mem_append_right _ (hcovers.started row hrow)
  · rw [← @hsame .unstarted rfl nofun] at hrow
    exact List.mem_append_right _ (hcovers.first row hrow)
  · exact List.mem_append_left _ (List.mem_map_of_mem hrow)

end ReportRelay.Dispatch
