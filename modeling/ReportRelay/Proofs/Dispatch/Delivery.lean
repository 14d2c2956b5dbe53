import ReportRelay.Proofs.Dispatch.Grounds
import ReportRelay.Proofs.Queue.Load

/-!
# Confirmed messages are delivered

A row with a transaction hash was broadcast under it: the chain has accepted a transaction with its message. A
confirmed row was also found there later. Both are read off the events before, whichever way the confirmation
took.
-/

namespace ReportRelay.Dispatch

open scoped List

variable {chainId : String} {u v t : List (Event interface)} {s s' : Store} {row later : Row}
  {txHash : String} {ids : List MsgId} {e : Event interface}

/-- The chain has accepted the row's message under the hash. -/
def Carried (u : List (Event interface)) (txHash : String) (row : Row) : Prop :=
  ∃ message, Message.decode row.typeUrl row.raw = .ok message ∧
    ∃ sign broadcast, Announces txHash row.id message sign broadcast ∧ [sign, broadcast] <+ u

/-- The chain has accepted the row's message under the hash, and later it was found. -/
def Delivered (u : List (Event interface)) (txHash : String) (row : Row) : Prop :=
  ∃ message, Message.decode row.typeUrl row.raw = .ok message ∧
    ∃ sign broadcast lookup, Announces txHash row.id message sign broadcast ∧ Finds txHash lookup ∧
      [sign, broadcast, lookup] <+ u

theorem Carried.mono (h : Carried u txHash row) (huv : u <+ v) : Carried v txHash row := by
  obtain ⟨message, hdecode, sign, broadcast, hannounces, hsublist⟩ := h
  exact ⟨message, hdecode, sign, broadcast, hannounces, hsublist.trans huv⟩

theorem Delivered.mono (h : Delivered u txHash row) (huv : u <+ v) : Delivered v txHash row := by
  obtain ⟨message, hdecode, sign, broadcast, lookup, hannounces, hfinds, hsublist⟩ := h
  exact ⟨message, hdecode, sign, broadcast, lookup, hannounces, hfinds, hsublist.trans huv⟩

theorem Carried.evolves (h : Carried u txHash row) (hrow : row.Evolves later) : Carried u txHash later := by
  obtain ⟨message, hdecode, sign, broadcast, hannounces, hsublist⟩ := h
  refine ⟨message, ?_, sign, broadcast, ?_, hsublist⟩
  · rw [hrow.typeUrl, hrow.raw, hdecode]
  · rwa [hrow.id]

theorem Carried.delivered (h : Carried u txHash row) {lookup : Event interface}
    (hfinds : Finds txHash lookup) (hlookup : lookup ∈ v) : Delivered (u ++ v) txHash row := by
  obtain ⟨message, hdecode, sign, broadcast, hannounces, hsublist⟩ := h
  exact ⟨message, hdecode, sign, broadcast, lookup, hannounces, hfinds,
    hsublist.append (List.singleton_sublist.2 hlookup)⟩

/-- What the events so far say of the rows. -/
structure Traced (u : List (Event interface)) (s : Store) : Prop where
  lawful : s.Lawful
  loaded : ∀ state limit rows, loading state limit (.ok rows) ∈ u →
    ∀ old ∈ rows, ∃ row ∈ s.rows, old.Evolves row
  carried : ∀ row ∈ s.rows, ∀ txHash, row.txHash = some txHash → Carried u txHash row
  recorded : ∀ before record after, u = before ++ record :: after →
    ∀ ids txHash, Records ids txHash record → ∀ id ∈ ids, ∃ row ∈ s.rows, row.id = id ∧
      (row.state = .errored ∨ row.txHash = some txHash ∧ Carried before txHash row)
  confirmed : ∀ row ∈ s.rows, row.state = .confirmed →
    ∃ txHash, row.txHash = some txHash ∧ Delivered u txHash row

namespace Traced

theorem nothing (h : s.Lawful) (hrows : s.rows = []) : Traced [] s where
  lawful := h
  loaded _ _ _ hload := absurd hload List.not_mem_nil
  carried row hrow := absurd (hrows ▸ hrow) List.not_mem_nil
  recorded before record after hsplit := absurd hsplit (by simp)
  confirmed row hrow := absurd (hrows ▸ hrow) List.not_mem_nil

theorem carried_of_loaded (h : Traced u s) (hrow : row ∈ s.rows) {message : Message}
    (hloaded : Loaded u row.id message) {sign broadcast : Event interface}
    (hannounces : Announces txHash row.id message sign broadcast) (hsublist : [sign, broadcast] <+ u) :
    Carried u txHash row := by
  obtain ⟨state, limit, rows, hload, old, hold, hid, hdecode⟩ := hloaded
  obtain ⟨row', hrow', hevolves⟩ := h.loaded state limit rows hload old hold
  obtain rfl := h.lawful.eq_of_id_eq hrow' hrow (hevolves.id.trans hid)
  refine ⟨message, ?_, sign, broadcast, hannounces, hsublist⟩
  rw [hevolves.typeUrl, hevolves.raw, hdecode]

theorem carried_of_given (h : Traced u s) {state : MsgState} {hash : Option String} {a : Except Error Unit}
    (hjustified : Justified u ⟨.storeAll ids state hash, a⟩) (hrow : row ∈ s.rows) (hid : row.id ∈ ids) :
    state = .broadcasted ∧ ∃ txHash, hash = some txHash ∧ Carried u txHash row := by
  obtain ⟨hstate, txHash, hhash, hall⟩ := hjustified
  obtain ⟨message, hloaded, sign, broadcast, hannounces, hsublist⟩ := hall row.id hid
  exact ⟨hstate, txHash, hhash, h.carried_of_loaded hrow hloaded hannounces hsublist⟩

/-- A row that is about to be confirmed was accepted and found. -/
theorem delivered_of_justified (h : Traced u s) {hash : Option String} {a : Except Error Unit}
    (hjustified : Justified u ⟨.store (.update ids .confirmed hash), a⟩) (hrow : row ∈ s.rows)
    (hid : row.id ∈ ids) (hstate : row.state ≠ .errored) :
    ∃ txHash, row.txHash = some txHash ∧ Delivered u txHash row := by
  obtain ⟨txHash, record, lookup, hrecords, hfinds, hsublist⟩ := hjustified.2 rfl
  obtain ⟨before, after, rfl, hlookup⟩ :
      ∃ before after, u = before ++ record :: after ∧ lookup ∈ after := by
    obtain ⟨before, after, rfl, hmem, hafter⟩ := List.cons_sublist_iff.1 hsublist
    obtain ⟨before, between, rfl⟩ := List.append_of_mem hmem
    refine ⟨before, between ++ after, by simp, ?_⟩
    exact List.mem_append_right _ (List.singleton_sublist.1 hafter)
  obtain ⟨row', hrow', hid', hknown⟩ := h.recorded before record after rfl ids txHash hrecords row.id hid
  obtain rfl := h.lawful.eq_of_id_eq hrow' hrow hid'
  obtain ⟨hhash, hcarried⟩ := hknown.resolve_left hstate
  exact ⟨txHash, hhash, hcarried.delivered hfinds (List.mem_cons_of_mem _ hlookup)⟩

/-! ## One event -/

variable (h : Traced u s) (hmeets : Meets chainId e s s') (hjustified : Justified u e)
include h hmeets

theorem loaded_step {state : MsgState} {limit : Int} {rows : List Row}
    (hload : loading state limit (.ok rows) ∈ u ++ [e]) {old : Row} (hold : old ∈ rows) :
    ∃ row ∈ s'.rows, old.Evolves row := by
  have hevolves := evolves_of_meets h.lawful hmeets
  rcases List.mem_append.1 hload with hload | hload
  · obtain ⟨row, hrow, holder⟩ := h.loaded state limit rows hload old hold
    obtain ⟨row', hrow', hnewer⟩ := hevolves.kept row hrow
    exact ⟨row', hrow', holder.trans hnewer (hevolves.lawful.checked row' hrow')⟩
  · obtain rfl := List.mem_singleton.1 hload
    have hexecute : s.execute chainId (.load state limit) = (.ok rows, s') := hmeets
    obtain ⟨hrows, rfl⟩ := Prod.mk.inj hexecute
    exact ⟨old, (Store.mem_of_load hrows hold).1, .refl old⟩

include hjustified

theorem carried_step (hrow : row ∈ s'.rows) (hhash : row.txHash = some txHash) :
    Carried (u ++ [e]) txHash row := by
  have hmono := List.sublist_append_left u [e]
  rcases mem_of_meets h.lawful hmeets hrow with hold | ⟨_, _, _, hnone⟩ |
    ⟨ids, state, hash, hmove, old, hold, hid, hcan, rfl⟩
  · exact (h.carried row hold txHash hhash).mono hmono
  · cases hnone.symm.trans hhash
  · have hevolves : old.Evolves (old.moveTo state hash) :=
      .of_moveTo (h.lawful.checked old hold) hcan ((evolves_of_meets h.lawful hmeets).lawful.checked _ hrow)
    obtain ⟨question, a⟩ := e
    cases question with
    | store statement =>
      cases statement with
      | update =>
        cases hmove
        cases state with
        | confirmed => exact ((h.carried old hold txHash hhash).evolves hevolves).mono hmono
        | broadcasted => exact absurd rfl hjustified.1
        | unstarted | started | errored => cases hhash
      | insert | load | find => cases hmove
    | storeAll =>
      cases hmove
      obtain ⟨rfl, txHash', rfl, hcarried⟩ := h.carried_of_given hjustified hold hid
      cases hhash
      exact (hcarried.evolves hevolves).mono hmono
    | client | signer | prices | now | turn | log => cases hmove

theorem confirmed_step (hrow : row ∈ s'.rows) (hstate : row.state = .confirmed) :
    ∃ txHash, row.txHash = some txHash ∧ Delivered (u ++ [e]) txHash row := by
  have hmono := List.sublist_append_left u [e]
  rcases mem_of_meets h.lawful hmeets hrow with hold | ⟨_, _, hnew, _⟩ |
    ⟨ids, state, hash, hmove, old, hold, hid, hcan, rfl⟩
  · obtain ⟨txHash, hhash, hdelivered⟩ := h.confirmed row hold hstate
    exact ⟨txHash, hhash, hdelivered.mono hmono⟩
  · cases hnew.symm.trans hstate
  · rw [Row.moveTo_state] at hstate
    subst hstate
    obtain ⟨question, a⟩ := e
    cases question with
    | store statement =>
      cases statement with
      | update =>
        cases hmove
        have hopen : old.state ≠ .errored := by
          intro herrored
          rw [herrored] at hcan
          cases hcan
        obtain ⟨txHash, hhash, hdelivered⟩ := h.delivered_of_justified hjustified hold hid hopen
        exact ⟨txHash, hhash, hdelivered.mono hmono⟩
      | insert | load | find => cases hmove
    | storeAll =>
      cases hmove
      cases hjustified.1
    | client | signer | prices | now | turn | log => cases hmove

theorem recorded_last (hrecords : Records ids txHash e) {id : MsgId} (hid : id ∈ ids) :
    ∃ row ∈ s'.rows, row.id = id ∧ row.txHash = some txHash ∧ Carried u txHash row := by
  cases hrecords with
  | given =>
    have hgiven : s.updateAll chainId ids .broadcasted (some txHash) = (.ok (), s') := hmeets
    rcases Store.updateAll_cases s chainId ids .broadcasted (some txHash) with ⟨heq, _⟩ | ⟨e, heq⟩
    · obtain ⟨rfl, _, hrows⟩ := Store.update_ok h.lawful (heq.symm.trans hgiven)
      obtain ⟨row, hrow, hchain, rfl⟩ := hrows id hid
      obtain ⟨_, _, hhash, hcarried⟩ := h.carried_of_given hjustified hrow hid
      cases hhash
      exact ⟨row.moveTo .broadcasted (some txHash),
        Store.mem_moved.2 ⟨row, hrow, if_pos (Store.named_iff.2 ⟨hchain, hid⟩)⟩, rfl, rfl, hcarried⟩
    · cases heq.symm.trans hgiven
  | loaded carried =>
    have hexecute : s.execute chainId (.load .broadcasted _) = (.ok _, s') := hmeets
    obtain ⟨hrows, rfl⟩ := Prod.mk.inj hexecute
    obtain ⟨row, hrow, hrowId, hhash⟩ := carried id hid
    have hmem := (Store.mem_of_load hrows hrow).1
    exact ⟨row, hmem, hrowId, hhash, h.carried row hmem txHash hhash⟩

theorem recorded_step {before after : List (Event interface)} {record : Event interface}
    (hsplit : u ++ [e] = before ++ record :: after) (hrecords : Records ids txHash record) {id : MsgId}
    (hid : id ∈ ids) : ∃ row ∈ s'.rows, row.id = id ∧
      (row.state = .errored ∨ row.txHash = some txHash ∧ Carried before txHash row) := by
  rcases List.eq_nil_or_concat after with rfl | ⟨after, last, rfl⟩
  · obtain ⟨rfl, hlast⟩ := List.append_inj' hsplit rfl
    cases hlast
    obtain ⟨row, hrow, hrowId, hknown⟩ := h.recorded_last hmeets hjustified hrecords hid
    exact ⟨row, hrow, hrowId, .inr hknown⟩
  · have hsplit' : u ++ [e] = before ++ record :: after ++ [last] := by simpa using hsplit
    obtain ⟨rfl, _⟩ := List.append_inj' hsplit' rfl
    obtain ⟨row, hrow, rfl, hknown⟩ := h.recorded before record after rfl ids txHash hrecords id hid
    obtain ⟨row', hrow', hevolves⟩ := (evolves_of_meets h.lawful hmeets).kept row hrow
    refine ⟨row', hrow', hevolves.id, ?_⟩
    rcases hknown with herrored | ⟨hhash, hcarried⟩
    · refine .inl ?_
      rw [hevolves.state.eq_of_isTerminal (by rw [herrored]; rfl), herrored]
    · rcases hevolves.txHash txHash hhash with hkept | ⟨herrored, _⟩
      · exact .inr ⟨hkept, hcarried.evolves hevolves⟩
      · exact .inl herrored

theorem step : Traced (u ++ [e]) s' where
  lawful := (evolves_of_meets h.lawful hmeets).lawful
  loaded _ _ _ hload _ hold := h.loaded_step hmeets hload hold
  carried _ hrow _ hhash := h.carried_step hmeets hjustified hrow hhash
  recorded _ _ _ hsplit _ _ hrecords _ hid := h.recorded_step hmeets hjustified hsplit hrecords hid
  confirmed _ hrow hstate := h.confirmed_step hmeets hjustified hrow hstate

end Traced

/-! ## Sessions -/

theorem Traced.passes (h : Traced u s) (hpass : Passes chainId s t s') (hgrounded : Grounded u t) :
    Traced (u ++ t) s' := by
  induction t generalizing u s with
  | nil =>
    cases hpass
    rwa [List.append_nil]
  | cons e t ih =>
    obtain ⟨m, hmeets, hpass⟩ := hpass
    have hstep := ih (h.step hmeets hgrounded.1) hpass hgrounded.2
    rwa [List.append_assoc] at hstep

/-- Whatever is asked of a dispatcher and whatever the answers, a row that is confirmed at some moment carries
the hash of a transaction that the chain had accepted with its message and that a later lookup had found. -/
theorem delivered_of_confirmed {E : Type} (others : Collaborators E) (chainId : String) (env : E)
    (commands : List Command) {before after : List Moment} {moment : Moment}
    (hsplit : (World.session chainId others env emptyStore commands).history = before ++ moment :: after)
    {row : Row} (hrow : row ∈ moment.store.rows) (hstate : row.state = .confirmed) :
    ∃ txHash, row.txHash = some txHash ∧ Delivered (events (before ++ [moment])) txHash row := by
  obtain ⟨hhappens, _⟩ := happens_session chainId others env emptyStore commands
  have hgrounded := grounded_of_happens hhappens
  have hrecorded := hhappens.recorded
  rw [hsplit] at hgrounded hrecorded
  obtain ⟨⟨n, hpass, hmeets⟩, _⟩ := hrecorded.split
  have hevents : events (before ++ moment :: after) = events (before ++ [moment]) ++ events after := by
    simp [events]
  rw [hevents] at hgrounded
  have htraced := (Traced.nothing lawful_emptyStore rfl).passes (t := events (before ++ [moment]))
    (by rw [events, List.map_append]; exact passes_append.2 ⟨n, hpass, passes_singleton.2 hmeets⟩)
    (Grounded.append.1 hgrounded).1
  exact htraced.confirmed row hrow hstate

/-- A payment of one cycle is confirmed at its end, and delivered. -/
theorem delivered_of_paid : ∃ before moment, (World.session "chain" obliging 0 emptyStore
      [.enqueue "contract" payment, .pollCycle (limitedSettings 1)]).history = before ++ [moment] ∧
    ∃ row ∈ moment.store.rows, row.state = .confirmed ∧
      ∃ txHash, row.txHash = some txHash ∧ Delivered (events (before ++ [moment])) txHash row := by
  obtain ⟨moment, hlast, row, hrow, hstate⟩ : ∃ moment ∈ (World.session "chain" obliging 0 emptyStore
      [.enqueue "contract" payment, .pollCycle (limitedSettings 1)]).history.getLast?,
      ∃ row ∈ moment.store.rows, row.state = .confirmed := by
    decide +kernel
  have hsplit := (List.dropLast_append_getLast? moment hlast).symm
  exact ⟨_, moment, hsplit, row, hrow, hstate,
    delivered_of_confirmed obliging "chain" 0 _ hsplit hrow hstate⟩

end ReportRelay.Dispatch
