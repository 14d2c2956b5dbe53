import ReportRelay.Proofs.Dispatch.Overlap

/-!
# Transactions that are resolved as a whole

The messages of one transaction stand or fall together on the chain. A sweep looks a transaction up once for all of its
messages that it has loaded. The rest of them stay broadcasted, so the messages get one outcome only if the load has
room for all of them or for none.
-/

namespace ReportRelay.Dispatch

variable {chainId : String} {s s' : Store} {settings : Settings} {es : List (Event interface)} {a b row : Row}

/-- Two broadcasted rows with one hash and one sender. -/
structure SameTransaction (chainId : String) (store : Store) (a b : Row) : Prop where
  left : a ∈ store.inState chainId .broadcasted
  right : b ∈ store.inState chainId .broadcasted
  txHash : b.txHash = a.txHash
  sender : storedSender b = storedSender a

/-- Rows that were broadcasted in one transaction are later in one state, with one hash. -/
def ResolvedAsOne (chainId : String) (store later : Store) : Prop :=
  ∀ a b, SameTransaction chainId store a b → ∃ a' ∈ later.rows, ∃ b' ∈ later.rows,
    a.Evolves a' ∧ b.Evolves b' ∧ b'.state = a'.state ∧ b'.txHash = a'.txHash

theorem SameTransaction.symm (h : SameTransaction chainId s a b) : SameTransaction chainId s b a :=
  ⟨h.right, h.left, h.txHash.symm, h.sender.symm⟩

theorem Sweeps.exists_same_outcome (h : Sweeps settings es) (hcalm : ∀ e ∈ es, CalmEvent e) (hs : s.Lawful)
    (hpass : Passes chainId s es s') (hsame : SameTransaction chainId s a b)
    (ha : a ∈ s.oldest chainId .broadcasted settings.maxMsgsPerBatch)
    (hb : b ∈ s.oldest chainId .broadcasted settings.maxMsgsPerBatch) :
    ∃ a' ∈ s'.rows, ∃ b' ∈ s'.rows, a.Evolves a' ∧ b.Evolves b' ∧ b'.state = a'.state ∧ b'.txHash = a'.txHash := by
  have hevolves := evolves_of_passes hs hpass
  have heach {row : Row} (hrow : row ∈ s.rows) {state : MsgState} {hash : Option String} {ids : List MsgId}
      (hall : s'.AllWith chainId ids state hash) (hid : row.id ∈ ids) :
      ∃ row' ∈ s'.rows, row.Evolves row' ∧ row'.state = state ∧ row'.txHash = hash := by
    obtain ⟨row', hrow', _, hrowId, hfacts⟩ := hall row.id hid
    exact ⟨row', hrow', hevolves.of_id_eq hrow hrow' hrowId, hfacts⟩
  obtain ⟨tx, htx, hhash, haId, houtcome⟩ := h.settles hcalm hs hpass ha
  have hbId : b.id ∈ tx.2.ids :=
    (mem_ids_of_transactionsOf htx).2 ⟨b, hb, rfl, hsame.txHash.trans hhash, hsame.sender⟩
  have haRow := (Store.mem_inState.1 hsame.left).1
  have hbRow := (Store.mem_inState.1 hsame.right).1
  obtain ⟨state, hash, hall⟩ : ∃ state hash, s'.AllWith chainId tx.2.ids state hash := by
    rcases houtcome with hconfirmed | herrored
    · exact ⟨_, _, hconfirmed⟩
    · exact ⟨_, _, herrored⟩
  obtain ⟨a', ha', haEvolves, rfl, rfl⟩ := heach haRow hall haId
  obtain ⟨b', hb', hbEvolves, hstate, hbHash⟩ := heach hbRow hall hbId
  exact ⟨a', ha', b', hb', haEvolves, hbEvolves, hstate, hbHash⟩

theorem Sweeps.loaded_of_resolvedAsOne (h : Sweeps settings es) (hcalm : ∀ e ∈ es, CalmEvent e) (hs : s.Lawful)
    (hpass : Passes chainId s es s') (hwhole : ResolvedAsOne chainId s s') (hsame : SameTransaction chainId s a b)
    (ha : a ∈ s.oldest chainId .broadcasted settings.maxMsgsPerBatch) :
    b ∈ s.oldest chainId .broadcasted settings.maxMsgsPerBatch := by
  -- otherwise one of them is still broadcasted while the other one is not
  by_contra hleftOut
  have hlater := (evolves_of_passes hs hpass).lawful
  obtain ⟨hbRow, _, hbState⟩ := Store.mem_inState.1 hsame.right
  have hbKept := h.keeps hs hpass hbRow hleftOut
  obtain ⟨a', ha', b', hb', haEvolves, hbEvolves, hstate, _⟩ := hwhole a b hsame
  obtain rfl := hlater.eq_of_id_eq hb' hbKept hbEvolves.id
  rw [hbState] at hstate
  refine hlater.not_resolved ha' (by rw [← hstate]; rfl) ?_
  rw [haEvolves.id]
  exact h.resolved hcalm hs hpass ha

/-- When the client stays calm, a sweep resolves every transaction as a whole if and only if no transaction is loaded
in part. -/
theorem resolvedAsOne_iff {E : Type} (others : Collaborators E) (calm : others.Calm) (chainId : String) (env : E)
    (store : Store) (hs : store.Lawful) (settings : Settings) :
    ResolvedAsOne chainId store (World.session chainId others env store [.confirmAnyUnconfirmed settings]).store ↔
      ∀ a b, SameTransaction chainId store a b → a ∈ store.oldest chainId .broadcasted settings.maxMsgsPerBatch →
        b ∈ store.oldest chainId .broadcasted settings.maxMsgsPerBatch := by
  obtain ⟨⟨r, htakes⟩, hrecorded, _⟩ := course_of_command chainId others env store (.confirmAnyUnconfirmed settings)
  have hcalmEvents := calmEvents_of_command chainId calm env store (.confirmAnyUnconfirmed settings)
  obtain ⟨o, ho⟩ := takes_outcome htakes
  have hsweeps := takes_confirmAnyUnconfirmed_calm ho hcalmEvents
  have hcalm : ∀ e ∈ deeds (events (World.session chainId others env store
      [.confirmAnyUnconfirmed settings]).history), CalmEvent e :=
    fun e he => hcalmEvents e (List.mem_of_mem_filter he)
  have hpass := passes_deeds.2 hrecorded.passes
  constructor
  · intro hwhole a b hsame ha
    exact hsweeps.loaded_of_resolvedAsOne hcalm hs hpass hwhole hsame ha
  · intro hwindow a b hsame
    -- both rows are loaded, or neither is
    by_cases ha : a ∈ store.oldest chainId .broadcasted settings.maxMsgsPerBatch
    · exact hsweeps.exists_same_outcome hcalm hs hpass hsame ha (hwindow a b hsame ha)
    · have hb : b ∉ store.oldest chainId .broadcasted settings.maxMsgsPerBatch :=
        fun hb => ha (hwindow b a hsame.symm hb)
      obtain ⟨haRow, _, haState⟩ := Store.mem_inState.1 hsame.left
      obtain ⟨hbRow, _, hbState⟩ := Store.mem_inState.1 hsame.right
      exact ⟨a, hsweeps.keeps hs hpass haRow ha, b, hsweeps.keeps hs hpass hbRow hb, .refl a, .refl b,
        hbState.trans haState.symm, hsame.txHash⟩

/-- A sweep with room for both messages of a transaction confirms both. -/
theorem resolvedAsOne_of_leftInFlight :
    leftInFlight.rows.map (fun row => (row.state, row.txHash)) =
        [(.broadcasted, some "hash"), (.broadcasted, some "hash"), (.unstarted, none)] ∧
      (World.session "chain" obliging 0 leftInFlight [.confirmAnyUnconfirmed (limitedSettings 2)]).store.rows.map
        Row.state = [.confirmed, .confirmed, .unstarted] ∧
      ResolvedAsOne "chain" leftInFlight
        (World.session "chain" obliging 0 leftInFlight [.confirmAnyUnconfirmed (limitedSettings 2)]).store := by
  refine ⟨by decide +kernel, by decide +kernel, ?_⟩
  refine (resolvedAsOne_iff obliging calm_obliging "chain" 0 leftInFlight lawful_leftInFlight (limitedSettings 2)).2 ?_
  intro a b hsame _
  rw [Store.oldest_of_length_le (by decide +kernel)]
  exact hsame.right

/-- A sweep with room for one of them confirms it and leaves the other one broadcasted. -/
theorem not_resolvedAsOne_of_leftInFlight : leftInFlight.Lawful ∧ ¬ResolvedAsOne "chain" leftInFlight
    (World.session "chain" obliging 0 leftInFlight [.confirmAnyUnconfirmed (limitedSettings 1)]).store := by
  refine ⟨lawful_leftInFlight, fun hwhole => ?_⟩
  obtain ⟨a, ha, b, hb, hhash, hsender, hparted⟩ : ∃ a ∈ leftInFlight.inState "chain" .broadcasted,
      ∃ b ∈ leftInFlight.inState "chain" .broadcasted, b.txHash = a.txHash ∧ storedSender b = storedSender a ∧
        ∀ a' ∈ (World.session "chain" obliging 0 leftInFlight [.confirmAnyUnconfirmed (limitedSettings 1)]).store.rows,
          ∀ b' ∈ (World.session "chain" obliging 0 leftInFlight
            [.confirmAnyUnconfirmed (limitedSettings 1)]).store.rows,
            a'.id = a.id → b'.id = b.id → b'.state ≠ a'.state := by
    decide +kernel
  obtain ⟨a', ha', b', hb', haEvolves, hbEvolves, hstate, _⟩ := hwhole a b ⟨ha, hb, hhash, hsender⟩
  exact hparted a' ha' b' hb' haEvolves.id hbEvolves.id hstate

end ReportRelay.Dispatch
