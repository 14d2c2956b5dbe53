import ReportRelay.Proofs.Dispatch.Selection
import ReportRelay.Proofs.Queue.Load

/-!
# A batch that is ready to be sent

When the senders' courses begin, all their messages are started, and no two of them share a message.
-/

namespace ReportRelay.Dispatch

variable {chainId : String} {s s' : Store} {settings : Settings} {i : Intake} {m : Makeup}
  {es : List (Event interface)} {ids : List MsgId} {state : MsgState} {batch : SenderBatch}
  {g : SenderMsgs} {p q : Pending}

/-! ## Moves -/

theorem passes_moves (hs : s.Lawful) (h : Passes chainId s (moves ids state) s') :
    s' = s.moved (Store.named chainId ids) state none ∧ s'.AllIn chainId ids state := by
  unfold moves at h
  split at h
  · next hempty =>
    obtain rfl := List.isEmpty_iff.1 hempty
    cases h
    exact ⟨Store.moved_nil.symm, fun _ hid => absurd hid List.not_mem_nil⟩
  · obtain ⟨rfl, _, hrows⟩ := Store.update_ok hs (passes_singleton.1 h)
    exact ⟨rfl, Store.allIn_moved hrows⟩

theorem errors_of_moves (hs : s.Lawful) (h : Passes chainId s (moves ids .errored) s') : s.Errors chainId ids s' := by
  obtain ⟨heq, hall⟩ := passes_moves hs h
  exact ⟨heq, hall⟩

theorem mem_of_moves (hs : s.Lawful) (h : Passes chainId s (moves ids state) s') {row : Row}
    (hrow : row ∈ s.rows) (hnot : row.id ∉ ids) : row ∈ s'.rows := by
  obtain ⟨rfl, _⟩ := passes_moves hs h
  exact Store.mem_moved.2 ⟨row, hrow, if_neg fun hnamed => hnot (Store.named_iff.1 hnamed).2⟩

theorem passes_of_asking (hasked : ∀ e ∈ es, ∃ sender reply, e = asking sender reply)
    (h : Passes chainId s es s') : s' = s := by
  induction es generalizing s with
  | nil => exact h
  | cons e es ih =>
    obtain ⟨m, he, hpass⟩ := h
    obtain ⟨sender, reply, rfl⟩ := hasked e List.mem_cons_self
    cases he
    exact ih (fun e he => hasked e (List.mem_cons_of_mem _ he)) hpass

theorem isStarted_iff {p : Pending} : p.isStarted = true ↔ p.row.state = .started :=
  decide_eq_true_iff

/-! ## What is known once messages are loaded -/

/-- The loaded rows are those that the store has to offer. -/
structure Drawn (chainId : String) (settings : Settings) (i : Intake) (s : Store) : Prop where
  lawful : s.Lawful
  leftover : s.load chainId .started settings.maxMsgsPerBatch = .ok i.leftover
  unstarted : s.load chainId .unstarted settings.maxMsgsPerBatch = .ok i.unstarted

theorem drawn_of_takenIn (hs : s.Lawful) (h : Passes chainId s (takenIn settings i ++ es) s') :
    Drawn chainId settings i s ∧ Passes chainId s es s' := by
  obtain ⟨hleftover, h⟩ := loaded_of_passes h
  obtain ⟨hunstarted, _, hnow, hpass⟩ := loaded_of_passes h
  cases hnow
  exact ⟨⟨hs, hleftover, hunstarted⟩, hpass⟩

namespace Drawn

theorem mem_loaded (h : Drawn chainId settings i s) {row : Row} (hrow : row ∈ i.loaded) :
    row ∈ s.rows ∧ row.chainId = chainId := by
  rcases List.mem_append.1 hrow with hrow | hrow
  · obtain ⟨hmem, hchain, _⟩ := Store.mem_of_load h.leftover hrow
    exact ⟨hmem, hchain⟩
  · obtain ⟨hmem, hchain, _⟩ := Store.mem_of_load h.unstarted hrow
    exact ⟨hmem, hchain⟩

theorem distinct (h : Drawn chainId settings i s) : i.Distinct :=
  fun _ ha _ hb hid => h.lawful.eq_of_id_eq (h.mem_loaded ha).1 (h.mem_loaded hb).1 hid

/-- Messages in the same state are pending in the order of their ids. -/
theorem pairwise_pending (h : Drawn chainId settings i s) :
    (i.pending settings).Pairwise fun p q => p.row.state = q.row.state → p.id < q.id := by
  have hloaded : i.loaded.Pairwise fun a b => a.state = b.state → a.id < b.id := by
    refine List.pairwise_append.2 ⟨?_, ?_, fun a ha b hb heq => ?_⟩
    · refine (Store.ascending_of_load h.lawful h.leftover).imp ?_
      exact fun hlt _ => hlt
    · refine (Store.ascending_of_load h.lawful h.unstarted).imp ?_
      exact fun hlt _ => hlt
    · obtain ⟨_, _, hstarted⟩ := Store.mem_of_load h.leftover ha
      obtain ⟨_, _, hunstarted⟩ := Store.mem_of_load h.unstarted hb
      rw [hstarted, hunstarted] at heq
      cases heq
  unfold Intake.pending Intake.findings
  rw [List.filterMap_map]
  refine List.pairwise_filterMap.2 (hloaded.imp fun {a b} hab p hp q hq => ?_)
  have row_eq {row : Row} {p : Pending} (hp : (find settings i.now row).pending? = some p) :
      p.row = row := by
    cases hfind : find settings i.now row with
    | pending q =>
      rw [hfind] at hp
      cases hp
      exact (find_of_pending hfind).1
    | expired | undecodable =>
      rw [hfind] at hp
      cases hp
  obtain rfl := row_eq hp
  obtain rfl := row_eq hq
  exact hab

theorem unstarted_of_next (h : Drawn chainId settings i s) (hg : g ∈ bySender (i.pending settings))
    (hp : g.next = some p) : p.row ∈ i.unstarted := by
  obtain ⟨hpending, _, hnew⟩ := mem_of_next hg hp
  refine (List.mem_append.1 (Intake.row_of_pending hpending).1).resolve_left fun hleft => ?_
  have hstarted := isStarted_iff.2 (Store.mem_of_load h.leftover hleft).2.2
  rw [hnew] at hstarted
  cases hstarted

/-- The new message of a sender is the oldest one that it has pending. -/
theorem next_le_pending (h : Drawn chainId settings i s) (hg : g ∈ bySender (i.pending settings))
    (hp : g.next = some p) (hq : q ∈ i.pending settings) (hsender : q.sender = g.sender)
    (hnew : q.row.state = .unstarted) : p.id ≤ q.id := by
  have hpnew := (Store.mem_of_load h.unstarted (h.unstarted_of_next hg hp)).2.2
  rw [(mem_bySender hg).2] at hp
  obtain ⟨_, before, after, hsplit, hbefore⟩ := List.find?_eq_some_iff_append.1 hp
  have hqnew : q.isStarted = false := by
    rw [Pending.isStarted, hnew]
    rfl
  have hqmem : q ∈ (i.pending settings).filter fun p => p.sender = g.sender :=
    List.mem_filter.2 ⟨hq, decide_eq_true hsender⟩
  have hpairwise := h.pairwise_pending.filter fun p => p.sender = g.sender
  rw [hsplit] at hqmem hpairwise
  rcases List.mem_append.1 hqmem with hqbefore | hqafter
  · have hno := hbefore q hqbefore
    rw [hqnew] at hno
    cases hno
  · rcases List.mem_cons.1 hqafter with rfl | hqafter
    · exact Int.le_refl _
    · have hordered := (List.pairwise_cons.1 (List.pairwise_append.1 hpairwise).2.1).1 q hqafter
      exact Int.le_of_lt (hordered (hpnew.trans hnew.symm))

theorem ascending_started (h : Drawn chainId settings i s) (hg : g ∈ bySender (i.pending settings)) :
    g.started.Pairwise fun p q => p.id < q.id := by
  rw [(mem_bySender hg).1]
  refine ((h.pairwise_pending.filter _).filter _).imp_of_mem fun hp hq hlt => hlt ?_
  rw [isStarted_iff.1 (List.mem_filter.1 hp).2, isStarted_iff.1 (List.mem_filter.1 hq).2]

theorem nodup_ids (h : Drawn chainId settings i s) (hg : g ∈ bySender (i.pending settings)) : g.ids.Nodup := by
  unfold SenderMsgs.ids SenderMsgs.msgs
  rw [List.map_append]
  refine List.nodup_append.2 ⟨?_, ?_, ?_⟩
  · exact List.pairwise_map.2 ((h.ascending_started hg).imp fun hlt => Int.ne_of_lt hlt)
  · cases g.next <;> simp
  · intro i hi j hj heq
    obtain ⟨p, hp, rfl⟩ := List.mem_map.1 hi
    obtain ⟨q, hq, rfl⟩ := List.mem_map.1 hj
    obtain ⟨hpmem, _, hstarted⟩ := (mem_started hg).1 hp
    obtain ⟨hqmem, _, hnew⟩ := mem_of_next hg (Option.mem_toList.1 hq)
    obtain rfl := h.distinct.eq_of_id_eq hpmem hqmem heq
    rw [hstarted] at hnew
    cases hnew

end Drawn

/-! ## What is known once a batch is made up -/

/-- The store before and after a batch is made up. -/
structure MadeUp (chainId : String) (settings : Settings) (m : Makeup) (s s' : Store) : Prop
    extends Drawn chainId settings m.toIntake s where
  evolves : s.Evolves s'
  parted : m.Parted settings
  kept : ∀ row ∈ s.rows, row.id ∉ m.expired settings → row.id ∉ m.undecodable settings →
    row.id ∉ m.unsignableIds → row ∈ s'.rows
  expired : ∀ id ∈ m.expired settings, s'.Spent id

/-- The messages that are errored before anything is started. -/
def Makeup.erroredIds (settings : Settings) (m : Makeup) : List MsgId :=
  m.expired settings ++ (m.undecodable settings ++ m.unsignableIds)

theorem Opens.errors (h : Opens settings m es) (hs : s.Lawful) (hpass : Passes chainId s es s') :
    s.Errors chainId (m.erroredIds settings) s' := by
  obtain ⟨asks⟩ := h
  obtain ⟨_, hpass⟩ := drawn_of_takenIn (i := m.toIntake) hs hpass
  obtain ⟨s₁, hexpired, hpass⟩ := passes_append.1 hpass
  obtain ⟨s₂, hundecodable, hpass⟩ := passes_append.1 hpass
  obtain ⟨s₃, hasks, hunsignable⟩ := passes_append.1 hpass
  have h₁ := evolves_of_passes hs hexpired
  have h₂ := evolves_of_passes h₁.lawful hundecodable
  obtain rfl := passes_of_asking asks.eq_asking hasks
  exact (errors_of_moves hs hexpired).append
    ((errors_of_moves h₁.lawful hundecodable).append (errors_of_moves h₂.lawful hunsignable))

theorem Opens.madeUp (h : Opens settings m es) (hs : s.Lawful) (hpass : Passes chainId s es s') :
    MadeUp chainId settings m s s' := by
  have hevolves := evolves_of_passes hs hpass
  have herrors := h.errors hs hpass
  obtain ⟨asks⟩ := h
  obtain ⟨hdrawn, _⟩ := drawn_of_takenIn (i := m.toIntake) hs hpass
  refine ⟨hdrawn, hevolves, asks.interleave, fun row hrow hn₁ hn₂ hn₃ => ?_, fun id hid => ?_⟩
  · refine herrors.mem_of_not_mem hrow fun hid => ?_
    rcases List.mem_append.1 hid with hid | hid
    · exact hn₁ hid
    · exact (List.mem_append.1 hid).elim hn₂ hn₃
  · exact herrors.allIn.spent rfl id (List.mem_append_left _ hid)

namespace MadeUp

theorem mem_row (h : MadeUp chainId settings m s s') (hbatch : batch ∈ m.batches) {p : Pending}
    (hp : p ∈ batch.msgs.msgs) : p.row ∈ m.loaded ∧ p.row ∈ s'.rows := by
  obtain ⟨hpending, _⟩ := mem_msgs (h.parted.mem_batches hbatch) hp
  have hloaded := (Intake.row_of_pending hpending).1
  refine ⟨hloaded, h.kept p.row (h.mem_loaded hloaded).1 (h.distinct.not_mem_expired hpending)
    (h.distinct.not_mem_undecodable hpending)
    (h.distinct.not_mem_unsignableIds h.parted hbatch (List.mem_map_of_mem hp))⟩

theorem nodup_ids (h : MadeUp chainId settings m s s') (hbatch : batch ∈ m.batches) : batch.msgs.ids.Nodup :=
  h.toDrawn.nodup_ids (h.parted.mem_batches hbatch)

theorem allIn_started {s'' : Store} (h : MadeUp chainId settings m s s')
    (hpass : Passes chainId s' (moves (starting m.batches) .started) s'') (hbatch : batch ∈ m.batches) :
    s''.AllIn chainId batch.msgs.ids .started := by
  intro id hid
  obtain ⟨p, hp, rfl⟩ := List.mem_map.1 hid
  rcases List.mem_append.1 hp with hstarted | hnext
  · obtain ⟨hpending, _, hisStarted⟩ := (mem_started (h.parted.mem_batches hbatch)).1 hstarted
    obtain ⟨hloaded, hrow⟩ := h.mem_row hbatch hp
    have hnot := h.distinct.not_mem_starting h.parted hpending hisStarted
    exact ⟨p.row, mem_of_moves h.evolves.lawful hpass hrow hnot, (h.mem_loaded hloaded).2, rfl,
      isStarted_iff.1 hisStarted⟩
  · refine (passes_moves h.evolves.lawful hpass).2 p.id (Makeup.mem_starting.2 ⟨batch, hbatch, p, ?_, rfl⟩)
    exact Option.mem_toList.1 hnext

end MadeUp

/-- A plan comes from a batch that was made up, of which the new messages were then started. -/
theorem exists_madeUp {t : List (Event interface)} {plan : Plan}
    (h : (prepare settings).Takes t (.ok (.ok (some plan)))) (hs : s.Lawful) (hpass : Passes chainId s t s') :
    ∃ m opening toPrices gasPrice made, plan = ⟨m.batches, gasPrice⟩ ∧ Opens settings m opening ∧
      deeds t = opening ++ (moves (starting m.batches) .started ++ [pricing toPrices]) ∧
      MadeUp chainId settings m s made ∧ Passes chainId made (moves (starting m.batches) .started) s' := by
  obtain ⟨m, opening, toPrices, prices, estimated, hopens, _, _, hdeeds, rfl⟩ := (takes_prepare h).exists_makeup
  rw [← passes_deeds, hdeeds] at hpass
  obtain ⟨made, hopening, hpass⟩ := passes_append.1 hpass
  obtain ⟨_, hstarts, _, hprices, rfl⟩ := passes_append.1 hpass
  cases hprices
  exact ⟨m, opening, toPrices, _, made, rfl, hopens, hdeeds, hopens.madeUp hs hopening, hstarts⟩

end ReportRelay.Dispatch
