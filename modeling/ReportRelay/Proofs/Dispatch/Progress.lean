import ReportRelay.Proofs.Dispatch.Clearance

/-!
# Every new message gets its turn

The oldest new message of a chain leaves with every responsive cycle, whoever its sender is and however many rows are
under way. What is enqueued meanwhile is younger. So a message waits for no more cycles than there are older new
messages.
-/

namespace ReportRelay.Dispatch

variable {chainId : String} {s s' : Store} {settings : Settings} {ids : List MsgId} {id : MsgId} {row : Row}
  {t : List (Event interface)} {bound : Nat}

/-- The new rows of a chain that are older than a message. -/
def olderThan (chainId : String) (id : MsgId) (store : Store) : List Row :=
  (store.inState chainId .unstarted).filter fun row => row.id < id

theorem mem_olderThan : row ∈ olderThan chainId id s ↔ row ∈ s.inState chainId .unstarted ∧ row.id < id := by
  rw [olderThan, List.mem_filter, decide_eq_true_iff]

theorem nodup_olderThan (hs : s.Lawful) : ((olderThan chainId id s).map Row.id).Nodup :=
  hs.nodup_ids.sublist ((List.filter_sublist.trans List.filter_sublist).map Row.id)

theorem olderThan_subset (h : s.Evolves s') (hid : id ≤ s.lastId) :
    (olderThan chainId id s').map Row.id ⊆ (olderThan chainId id s).map Row.id := by
  intro other hother
  obtain ⟨row', hrow', rfl⟩ := List.mem_map.1 hother
  obtain ⟨hstate, hlt⟩ := mem_olderThan.1 hrow'
  obtain ⟨hmem, hchain, hunstarted⟩ := Store.mem_inState.1 hstate
  -- what comes later is younger, and what is new later was new before
  obtain ⟨row, hrow, hevolves⟩ := h.known row' hmem (Int.le_trans (Int.le_of_lt hlt) hid)
  refine List.mem_map.2 ⟨row, mem_olderThan.2 ⟨Store.mem_inState.2 ⟨hrow, ?_, ?_⟩, ?_⟩, hevolves.id.symm⟩
  · exact hevolves.chainId.symm.trans hchain
  · have hleads := hevolves.state
    rw [hunstarted] at hleads
    exact hleads.eq_unstarted
  · rwa [← hevolves.id]

theorem length_olderThan_le (h : s.Evolves s') (hid : id ≤ s.lastId) :
    (olderThan chainId id s').length ≤ (olderThan chainId id s).length := by
  have hsub : (olderThan chainId id s').map Row.id ⊆ (olderThan chainId id s).map Row.id := olderThan_subset h hid
  have hle := ((nodup_olderThan h.lawful).subperm hsub).length_le
  simpa using hle

theorem length_olderThan_lt (h : s.Evolves s') (hid : id ≤ s.lastId) {first : Row}
    (hfirst : first ∈ olderThan chainId id s) (hresolved : s'.Resolved first.id) :
    (olderThan chainId id s').length < (olderThan chainId id s).length := by
  have hnot : first.id ∉ (olderThan chainId id s').map Row.id := by
    intro hmem
    obtain ⟨row, hrow, hrowId⟩ := List.mem_map.1 hmem
    obtain ⟨hrowMem, _, hunstarted⟩ := Store.mem_inState.1 (mem_olderThan.1 hrow).1
    exact h.lawful.not_resolved hrowMem (by rw [hunstarted]; rfl) (hrowId ▸ hresolved)
  have hsub : first.id :: (olderThan chainId id s').map Row.id ⊆ (olderThan chainId id s).map Row.id :=
    List.cons_subset.2 ⟨List.mem_map_of_mem hfirst, olderThan_subset h hid⟩
  have hle := ((List.nodup_cons.2 ⟨hnot, nodup_olderThan h.lawful⟩).subperm hsub).length_le
  simp only [List.length_cons, List.length_map] at hle
  omega

/-! ## One command -/

/-- The message is new, and fewer new ones than the bound are older. -/
structure Queued (chainId : String) (row : Row) (bound : Nat) (store : Store) : Prop where
  unstarted : row ∈ store.inState chainId .unstarted
  older : (olderThan chainId row.id store).length < bound

theorem Queued.known (h : Queued chainId row bound s) (hs : s.Lawful) : row.id ≤ s.lastId :=
  hs.bounded row (Store.mem_inState.1 h.unstarted).1

theorem Queued.mono (h : Queued chainId row bound s) (hevolves : s.Evolves s') (hid : row.id ≤ s.lastId)
    (hrow : row ∈ s'.rows) : Queued chainId row bound s' := by
  obtain ⟨_, hchain, hstate⟩ := Store.mem_inState.1 h.unstarted
  exact ⟨Store.mem_inState.2 ⟨hrow, hchain, hstate⟩, Nat.lt_of_le_of_lt (length_olderThan_le hevolves hid) h.older⟩

theorem Queued.of_enqueue {contractId : String} {envelope : Envelope} {r : Except Crash (Except Error MsgId)}
    (h : Queued chainId row bound s) (htakes : (enqueue contractId envelope).Takes t r) (hs : s.Lawful)
    (hpass : Passes chainId s t s') : Queued chainId row bound s' := by
  have hkept := mem_of_spares hs (passes_deeds.2 hpass) (spares_of_enqueue htakes)
    (Store.mem_inState.1 h.unstarted).1
  exact h.mono (evolves_of_passes hs hpass) (h.known hs) hkept

/-- A responsive cycle resolves the message or one that is older. -/
theorem Queued.of_cycle {r : Except Crash Unit} (h : Queued chainId row (bound + 1) s)
    (htakes : (pollCycle settings).Takes t r) (hlimit : 1 ≤ settings.maxMsgsPerBatch)
    (htimely : settings.msgTimeout ≤ Settings.longestTimeout)
    (hresponds : ∀ e ∈ t, responds settings.gasToken e = true) (hs : s.Lawful) (hpass : Passes chainId s t s') :
    s'.Resolved row.id ∨ Queued chainId row bound s' := by
  obtain ⟨ids, hclears, hcovers, _⟩ := clears_of_cycle htakes hresponds htimely hs hpass
  by_cases hid : row.id ∈ ids
  · exact .inl (hclears.resolved row.id hid)
  obtain ⟨hrow, hchain, hstate⟩ := Store.mem_inState.1 h.unstarted
  refine .inr ⟨Store.mem_inState.2 ⟨hclears.kept row hrow hid, hchain, hstate⟩, ?_⟩
  -- the message is left as it is, so the first of the new ones, which the cycle resolves, is an older one
  obtain ⟨first, hfirst⟩ := Store.exists_head_of_mem_inState hlimit h.unstarted
  have hcleared := hcovers.first first hfirst
  have hle := Store.head_le_of_mem_inState hs hfirst h.unstarted
  have hne : first.id ≠ row.id := fun heq => hid (heq ▸ hcleared)
  have holder : first ∈ olderThan chainId row.id s :=
    mem_olderThan.2 ⟨Store.mem_inState_of_oldest (List.mem_of_mem_head? hfirst), Int.lt_iff_le_and_ne.2 ⟨hle, hne⟩⟩
  have hfewer := length_olderThan_lt hclears.evolves (h.known hs) holder (hclears.resolved first.id hcleared)
  have hbound := h.older
  omega

/-! ## Any number of commands -/

inductive Routine (settings : Settings) : Command → Prop
  | enqueue {contractId : String} {envelope : Envelope} : Routine settings (.enqueue contractId envelope)
  | pollCycle : Routine settings (.pollCycle settings)

def isCycle : Command → Bool
  | .pollCycle _ => true
  | _ => false

section
variable {E : Type} (others : Collaborators E) (settings : Settings) (hlimit : 1 ≤ settings.maxMsgsPerBatch)
  (htimely : settings.msgTimeout ≤ Settings.longestTimeout)
include hlimit htimely

theorem resolved_or_queued {commands : List Command} (hroutine : ∀ c ∈ commands, Routine settings c) (world : World E)
    (hs : world.store.Lawful) (h : world.store.Resolved row.id ∨
      Queued chainId row (bound + commands.countP isCycle) world.store)
    (hresponds : ∀ e ∈ events (commands.foldl (World.perform chainId others) world).history,
      responds settings.gasToken e = true) :
    (commands.foldl (World.perform chainId others) world).store.Resolved row.id ∨
      Queued chainId row bound (commands.foldl (World.perform chainId others) world).store := by
  -- each cycle lowers the bound by one, and nothing raises it
  induction commands generalizing world with
  | nil => exact h
  | cons command commands ih =>
    obtain ⟨ms, hhistory, htakes, hrecorded, _⟩ := exists_takes_of_run chainId others command.dialogue world
    have hevolves := evolves_of_passes hs hrecorded.passes
    obtain ⟨hfirst, hrest⟩ := List.forall_mem_cons.1 hroutine
    refine ih hrest (world.perform chainId others command) hevolves.lawful ?_ hresponds
    have hown : ∀ e ∈ events ms, responds settings.gasToken e = true := by
      intro e he
      obtain ⟨moment, hmoment, rfl⟩ := List.mem_map.1 he
      refine hresponds _ (List.mem_map_of_mem
        ((prefix_of_performs chainId others commands (world.perform chainId others command)).subset ?_))
      rw [World.perform, hhistory]
      exact List.mem_append_right _ hmoment
    rcases h with hresolved | hqueued
    · exact .inl (hevolves.resolved hresolved)
    cases hfirst with
    | enqueue =>
      obtain ⟨o, ho⟩ := takes_outcome htakes
      exact .inr (hqueued.of_enqueue ho hs hrecorded.passes)
    | pollCycle =>
      rw [List.countP_cons_of_pos rfl, ← Nat.add_assoc] at hqueued
      exact hqueued.of_cycle htakes hlimit htimely hown hs hrecorded.passes

/-- A new message is confirmed or errored after one more responsive cycle than there are older new ones. -/
theorem resolved_of_cycles (chainId : String) (env : E) (store : Store) (hs : store.Lawful) (row : Row)
    (hrow : row ∈ store.inState chainId .unstarted) (commands : List Command)
    (hroutine : ∀ c ∈ commands, Routine settings c)
    (hcycles : (olderThan chainId row.id store).length < commands.countP isCycle)
    (hresponds : ∀ e ∈ events (World.session chainId others env store commands).history,
      responds settings.gasToken e = true) :
    ∃ row' ∈ (World.session chainId others env store commands).store.rows,
      row.Evolves row' ∧ (row'.state = .confirmed ∨ row'.state = .errored) := by
  have hqueued : Queued chainId row (0 + commands.countP isCycle) store := ⟨hrow, by omega⟩
  rcases resolved_or_queued others settings hlimit htimely hroutine ⟨env, store, []⟩ hs (.inr hqueued) hresponds with
    hresolved | hlate
  · have hevolves := evolves_of_passes hs (happens_session chainId others env store commands).1.recorded.passes
    obtain ⟨row', hrow', hrowEvolves, hterminal⟩ := hevolves.exists_terminal (Store.mem_inState.1 hrow).1 hresolved
    exact ⟨row', hrow', hrowEvolves, MsgState.isTerminal_iff.1 hterminal⟩
  · exact absurd hlate.older (Nat.not_lt_zero _)

end

/-- Four payments, of which two batches of one message each have left the first two started. -/
def halfQueued : Store :=
  (World.session "chain" obliging 2 (payments 4)
    [.sendMsgBatch (limitedSettings 1), .sendMsgBatch (limitedSettings 1)]).store

def lastQueued : Row :=
  ⟨4, "chain", "contract", .unstarted, payment.typeUrl, payment.value, none, 0⟩

/-- Two cycles with room for one message confirm the last of the four, which one new message was ahead of, but not the
one that is enqueued in between. -/
theorem resolved_of_halfQueued :
    halfQueued.rows.map Row.state = [.started, .started, .unstarted, .unstarted] ∧
      (World.session "chain" obliging 0 halfQueued [.pollCycle (limitedSettings 1), .enqueue "contract" payment,
        .pollCycle (limitedSettings 1)]).store.rows.map Row.state =
        [.confirmed, .confirmed, .confirmed, .confirmed, .unstarted] ∧
      ∃ row' ∈ (World.session "chain" obliging 0 halfQueued [.pollCycle (limitedSettings 1),
        .enqueue "contract" payment, .pollCycle (limitedSettings 1)]).store.rows,
        lastQueued.Evolves row' ∧ (row'.state = .confirmed ∨ row'.state = .errored) := by
  refine ⟨by decide +kernel, by decide +kernel, ?_⟩
  refine resolved_of_cycles obliging (limitedSettings 1) (by decide) (by decide) "chain" 0 halfQueued
    (lawful_session "chain" obliging 2 (lawful_payments 4) _) lastQueued (by decide +kernel) _ ?_ (by decide +kernel)
    (by decide +kernel)
  simp only [List.forall_mem_cons]
  exact ⟨.pollCycle, .enqueue, .pollCycle, List.forall_mem_nil _⟩

end ReportRelay.Dispatch
