import Mathlib.Data.List.Sort
import ReportRelay.Proofs.Queue.Load

/-!
# Clearing messages out of a store

A message is resolved once it is confirmed or errored. To clear messages is to resolve all of them and to leave every
other row as it is; whoever clears one list and then another one has cleared both.
-/

namespace ReportRelay.Store

variable {store later : Store} {chainId : String} {state : MsgState} {limit : Int} {row : Row} {id : MsgId}
  {ids ids' : List MsgId}

/-! ## The rows in a state -/

/-- The rows of a chain in a state, the oldest first. -/
def inState (chainId : String) (state : MsgState) (store : Store) : List Row :=
  store.rows.filter fun row => row.chainId = chainId ∧ row.state = state

theorem mem_inState : row ∈ store.inState chainId state ↔
    row ∈ store.rows ∧ row.chainId = chainId ∧ row.state = state := by
  rw [inState, List.mem_filter, decide_eq_true_iff]

theorem ascending_inState (h : store.Lawful) : (store.inState chainId state).Pairwise (·.id < ·.id) :=
  h.ascending.sublist List.filter_sublist

/-- Rows in the order of their ids are known by their members. -/
theorem eq_of_ascending {rows rows' : List Row} (h : rows.Pairwise (·.id < ·.id)) (h' : rows'.Pairwise (·.id < ·.id))
    (hmem : ∀ row, row ∈ rows ↔ row ∈ rows') : rows = rows' := by
  have : Std.Irrefl fun a b : Row => a.id < b.id := ⟨fun _ => Int.lt_irrefl _⟩
  have : Std.Antisymm fun a b : Row => a.id < b.id := ⟨fun _ _ hab hba => absurd hab (Int.not_lt.2 (Int.le_of_lt hba))⟩
  exact h.eq_of_mem_iff h' hmem

theorem oldest_eq_take : store.oldest chainId state limit = (store.inState chainId state).take limit.toNat :=
  rfl

theorem mem_inState_of_oldest (h : row ∈ store.oldest chainId state limit) : row ∈ store.inState chainId state :=
  List.mem_of_mem_take h

theorem oldest_of_length_le (h : ((store.inState chainId state).length : Int) ≤ limit) :
    store.oldest chainId state limit = store.inState chainId state := by
  rw [oldest_eq_take]
  apply List.take_of_length_le
  omega

theorem head_le_of_mem_inState (hs : store.Lawful) {first : Row}
    (hfirst : (store.oldest chainId state limit).head? = some first) (hrow : row ∈ store.inState chainId state) :
    first.id ≤ row.id := by
  have hascending : (store.inState chainId state).Pairwise (·.id < ·.id) := ascending_inState hs
  rw [oldest_eq_take, List.head?_take] at hfirst
  split at hfirst
  · cases hfirst
  · obtain ⟨rest, hall⟩ := List.head?_eq_some_iff.1 hfirst
    rw [hall] at hascending hrow
    rcases List.mem_cons.1 hrow with rfl | hrow
    · exact Int.le_refl _
    · exact Int.le_of_lt ((List.pairwise_cons.1 hascending).1 row hrow)

theorem exists_head_of_mem_inState (hlimit : 1 ≤ limit) (hrow : row ∈ store.inState chainId state) :
    ∃ first, (store.oldest chainId state limit).head? = some first := by
  rw [oldest_eq_take, List.head?_take, if_neg (by omega), ← Option.isSome_iff_exists, List.isSome_head?]
  exact List.ne_nil_of_mem hrow

/-! ## Resolved messages -/

/-- The message is confirmed or errored. -/
def Resolved (id : MsgId) (store : Store) : Prop :=
  ∃ row ∈ store.rows, row.id = id ∧ row.state.isTerminal = true

theorem Evolves.resolved (h : store.Evolves later) (hid : store.Resolved id) : later.Resolved id := by
  obtain ⟨row, hrow, rfl, hterminal⟩ := hid
  obtain ⟨row', hrow', hevolves⟩ := h.kept row hrow
  refine ⟨row', hrow', hevolves.id, ?_⟩
  rwa [hevolves.state.eq_of_isTerminal hterminal]

theorem AllIn.resolved (h : store.AllIn chainId ids state) (hstate : state.isTerminal = true) :
    ∀ id ∈ ids, store.Resolved id := by
  intro id hid
  obtain ⟨row, hrow, _, hrowId, rfl⟩ := h id hid
  exact ⟨row, hrow, hrowId, hstate⟩

theorem Lawful.not_resolved (h : store.Lawful) (hrow : row ∈ store.rows) (hstate : row.state.isTerminal = false) :
    ¬store.Resolved row.id := by
  rintro ⟨row', hrow', hid, hterminal⟩
  obtain rfl := h.eq_of_id_eq hrow' hrow hid
  rw [hstate] at hterminal
  cases hterminal

theorem Evolves.exists_terminal (h : store.Evolves later) (hrow : row ∈ store.rows) (hid : later.Resolved row.id) :
    ∃ row' ∈ later.rows, row.Evolves row' ∧ row'.state.isTerminal = true := by
  obtain ⟨row', hrow', hrowId, hterminal⟩ := hid
  exact ⟨row', hrow', h.of_id_eq hrow hrow' hrowId, hterminal⟩

/-! ## Clearing -/

/-- The store later: the given messages are resolved, every other row is as it was, and there are no new ones. -/
structure Clears (ids : List MsgId) (store later : Store) : Prop where
  evolves : store.Evolves later
  lastId : later.lastId = store.lastId
  resolved : ∀ id ∈ ids, later.Resolved id
  kept : ∀ row ∈ store.rows, row.id ∉ ids → row ∈ later.rows

namespace Clears

theorem nothing (h : store.Lawful) : Clears [] store store :=
  ⟨.refl h, rfl, fun _ hid => absurd hid List.not_mem_nil, fun _ hrow _ => hrow⟩

theorem append {a b c : Store} (h : Clears ids a b) (h' : Clears ids' b c) : Clears (ids ++ ids') a c where
  evolves := h.evolves.trans h'.evolves
  lastId := h'.lastId.trans h.lastId
  resolved := List.forall_mem_append.2 ⟨fun id hid => h'.evolves.resolved (h.resolved id hid), h'.resolved⟩
  kept row hrow hnot := by
    rw [List.mem_append, not_or] at hnot
    exact h'.kept row (h.kept row hrow hnot.1) hnot.2

theorem mem_of_not_isTerminal (h : Clears ids store later) (hrow : row ∈ later.rows)
    (hstate : row.state.isTerminal = false) : row ∈ store.rows ∧ row.id ∉ ids := by
  have hlawful := h.evolves.lawful
  have hnot : row.id ∉ ids := fun hid => hlawful.not_resolved hrow hstate (h.resolved row.id hid)
  -- no row is new, so there was one before, and that one is still there
  obtain ⟨old, hold, hevolves⟩ := h.evolves.known row hrow (h.lastId ▸ hlawful.bounded row hrow)
  have hsame := h.kept old hold (hevolves.id ▸ hnot)
  obtain rfl := hlawful.eq_of_id_eq hsame hrow hevolves.id.symm
  exact ⟨hold, hnot⟩

theorem mem_inState_iff (h : Clears ids store later) (hstate : state.isTerminal = false) :
    row ∈ later.inState chainId state ↔ row ∈ store.inState chainId state ∧ row.id ∉ ids := by
  rw [mem_inState, mem_inState]
  constructor
  · rintro ⟨hrow, hchain, rfl⟩
    obtain ⟨hold, hnot⟩ := h.mem_of_not_isTerminal hrow hstate
    exact ⟨⟨hold, hchain, rfl⟩, hnot⟩
  · rintro ⟨⟨hrow, hchain, hrowState⟩, hnot⟩
    exact ⟨h.kept row hrow hnot, hchain, hrowState⟩

theorem inState_eq_nil (h : Clears ids store later) (hstate : state.isTerminal = false)
    (hinside : ∀ row ∈ store.inState chainId state, row.id ∈ ids) : later.inState chainId state = [] := by
  refine List.eq_nil_iff_forall_not_mem.2 fun row hrow => ?_
  obtain ⟨hold, hnot⟩ := (h.mem_inState_iff hstate).1 hrow
  exact hnot (hinside row hold)

theorem inState_eq (h : Clears ids store later) (hs : store.Lawful) (hstate : state.isTerminal = false)
    (houtside : ∀ row ∈ store.inState chainId state, row.id ∉ ids) :
    later.inState chainId state = store.inState chainId state := by
  refine eq_of_ascending (ascending_inState h.evolves.lawful) (ascending_inState hs) fun row => ?_
  rw [h.mem_inState_iff hstate]
  exact and_iff_left_of_imp (houtside row)

/-- Where the oldest rows in a state are cleared, the rest of them is left. -/
theorem inState_eq_drop (h : Clears ((store.oldest chainId state limit).map Row.id) store later) (hs : store.Lawful)
    (hstate : state.isTerminal = false) :
    later.inState chainId state = (store.inState chainId state).drop limit.toNat := by
  have hascending : (store.inState chainId state).Pairwise (·.id < ·.id) := ascending_inState hs
  apply eq_of_ascending (ascending_inState h.evolves.lawful) (hascending.sublist (List.drop_sublist _ _))
  intro row
  rw [h.mem_inState_iff hstate, oldest_eq_take]
  rw [← List.take_append_drop limit.toNat (store.inState chainId state)] at hascending
  constructor
  · rintro ⟨hrow, hnot⟩
    rw [← List.take_append_drop limit.toNat (store.inState chainId state), List.mem_append] at hrow
    exact hrow.resolve_left fun htaken => hnot (List.mem_map_of_mem htaken)
  · intro hrow
    refine ⟨List.mem_of_mem_drop hrow, fun htaken => ?_⟩
    obtain ⟨other, hother, hid⟩ := List.mem_map.1 htaken
    exact Int.ne_of_lt ((List.pairwise_append.1 hascending).2.2 other hother row hrow) hid

end Clears

end ReportRelay.Store
