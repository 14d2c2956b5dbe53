import ReportRelay.Proofs.Queue.FailedUpdate

/-!
# Updates that succeed

An update consults no table of transitions. What it accepts comes of three checks together: the guard and the hash
constraint of the table, which see only rows that are there, and the count of the rows moved, which misses those that
are not. Together they accept exactly the ids that are given once and are those of rows of the chain on an edge of the
life cycle.
-/

namespace ReportRelay

/-- The row later: the same message in the given state, with the given hash when it is broadcasted, the hash that it
had when it is confirmed, and none in any other state. -/
structure Row.Becomes (state : MsgState) (txHash : Option String) (row later : Row) : Prop where
  message : later = { row with state, txHash := later.txHash }
  broadcasted : state = .broadcasted → later.txHash = txHash
  confirmed : state = .confirmed → later.txHash = row.txHash
  cleared : state ≠ .broadcasted → state ≠ .confirmed → later.txHash = none

theorem Row.becomes_moveTo (row : Row) (state : MsgState) (txHash : Option String) :
    row.Becomes state txHash (row.moveTo state txHash) := by
  cases state with
  | broadcasted => exact ⟨rfl, fun _ => rfl, nofun, fun h _ => absurd rfl h⟩
  | confirmed => exact ⟨rfl, nofun, fun _ => rfl, fun _ h => absurd rfl h⟩
  | unstarted | started | errored => exact ⟨rfl, nofun, nofun, fun _ _ => rfl⟩

namespace Store

variable {store later : Store} {chainId : String} {ids : List MsgId} {state : MsgState} {txHash : Option String}

/-- The store later: exactly the rows of the chain with the given ids have changed, and there are no new rows. -/
structure Moves (chainId : String) (ids : List MsgId) (state : MsgState) (txHash : Option String)
    (store later : Store) : Prop where
  table : later.table = store.table
  lastId : later.lastId = store.lastId
  ids_eq : later.rows.map Row.id = store.rows.map Row.id
  moved : ∀ row ∈ store.rows, row.chainId = chainId → row.id ∈ ids →
    row.state ≠ state ∧ ∃ row' ∈ later.rows, row.Becomes state txHash row'
  kept : ∀ row ∈ store.rows, ¬(row.chainId = chainId ∧ row.id ∈ ids) → row ∈ later.rows

theorem moves_moved (hfree : ∀ row ∈ store.rows, named chainId ids row = true → row.state.canMoveTo state = true) :
    store.Moves chainId ids state txHash (store.moved (named chainId ids) state txHash) where
  table := rfl
  lastId := rfl
  ids_eq := by
    rw [moved, List.map_map]
    apply List.map_congr_left
    intro row _
    dsimp only [Function.comp_apply]
    split_ifs
    · exact Row.moveTo_id
    · rfl
  moved row hrow hchain hid := by
    have hnamed : named chainId ids row = true := named_iff.2 ⟨hchain, hid⟩
    constructor
    · intro hstate
      have hmove := hfree row hrow hnamed
      rw [hstate, MsgState.canMoveTo_self] at hmove
      cases hmove
    · exact ⟨row.moveTo state txHash, mem_moved.2 ⟨row, hrow, if_pos hnamed⟩, row.becomes_moveTo state txHash⟩
  kept row hrow hnot := mem_moved.2 ⟨row, hrow, if_neg fun hnamed => hnot (named_iff.1 hnamed)⟩

/-- The three ways that an update of a lawful store may end, once it has the hash that it needs. -/
theorem update_eq_of_lawful (h : store.Lawful) (hids : ids ≠ []) (hhash : state = .broadcasted → txHash ≠ none) :
    store.update chainId ids state txHash =
      if (store.rows.filter (named chainId ids)).any fun row => !row.state.canMoveTo state then
        (.error (.database .rejectedTransition), store)
      else if (store.rows.filter (named chainId ids)).length = ids.length then
        (.ok (), store.moved (named chainId ids) state txHash)
      else
        (.error (.rowCountMismatch ids.length (store.rows.filter (named chainId ids)).length),
          store.moved (named chainId ids) state txHash) := by
  rw [update_eq hids hhash, moveWhere_eq_of_lawful h hhash]
  by_cases hstuck : ((store.rows.filter (named chainId ids)).any fun row => !row.state.canMoveTo state) = true
  · rw [if_pos hstuck, if_pos hstuck]
  · rw [if_neg hstuck, if_neg hstuck]

theorem any_stuck_iff : ((store.rows.filter (named chainId ids)).any fun row => !row.state.canMoveTo state) = true ↔
    ∃ row ∈ store.rows, named chainId ids row = true ∧ row.state.canMoveTo state = false := by
  simp

theorem hash_of_update {outcome : Except Error Unit} (hu : (store.update chainId ids state txHash).1 = outcome)
    (hne : outcome ≠ .error .missingTxHash) : state = .broadcasted → txHash ≠ none := by
  rintro rfl rfl
  apply hne
  rw [← hu, update, if_pos ⟨rfl, rfl⟩]

/-- An update that succeeds had the hash that it needs, and all of its ids could be moved. -/
theorem movable_of_update_ok (h : store.Lawful) (hu : (store.update chainId ids state txHash).1 = .ok ()) :
    (state = .broadcasted → txHash ≠ none) ∧ store.Movable chainId ids state := by
  have hhash : state = .broadcasted → txHash ≠ none := hash_of_update hu nofun
  refine ⟨hhash, ?_⟩
  rcases eq_or_ne ids [] with rfl | hids
  · exact ⟨List.nodup_nil, fun _ hid => absurd hid List.not_mem_nil⟩
  rw [update_eq_of_lawful h hids hhash] at hu
  split_ifs at hu with hstuck hlength
  constructor
  · exact (perm_ids_of_length_eq h hlength).nodup_iff.1 h.nodup_named
  · intro id hid
    obtain ⟨row, hrow, hchain, rfl⟩ := mem_ids_of_length_eq h hlength hid
    refine ⟨row, hrow, hchain, rfl, ?_⟩
    by_contra hmove
    apply hstuck
    exact any_stuck_iff.2 ⟨row, hrow, named_iff.2 ⟨hchain, hid⟩, Bool.eq_false_iff.2 hmove⟩

theorem Movable.canMoveTo (hids : store.Movable chainId ids state) (h : store.Lawful) :
    ∀ row ∈ store.rows, named chainId ids row = true → row.state.canMoveTo state = true := by
  intro row hrow hnamed
  obtain ⟨other, hother, _, hid, hmove⟩ := hids.rows row.id (named_iff.1 hnamed).2
  obtain rfl := h.eq_of_id_eq hother hrow hid
  exact hmove

/-- The guard of the table stops an update exactly when a row that it names is on no edge of the life cycle. -/
theorem update_rejected_iff (h : store.Lawful) :
    (store.update chainId ids state txHash).1 = .error (.database .rejectedTransition) ↔
      (state = .broadcasted → txHash ≠ none) ∧
        ∃ row ∈ store.rows, (row.chainId = chainId ∧ row.id ∈ ids) ∧ row.state.canMoveTo state = false := by
  constructor
  · intro hu
    have hhash : state = .broadcasted → txHash ≠ none := hash_of_update hu nofun
    refine ⟨hhash, ?_⟩
    rcases eq_or_ne ids [] with rfl | hids
    · rw [update_nil hhash] at hu
      cases hu
    rw [update_eq_of_lawful h hids hhash] at hu
    split_ifs at hu with hstuck hlength
    · obtain ⟨row, hrow, hnamed, hmove⟩ := any_stuck_iff.1 hstuck
      exact ⟨row, hrow, named_iff.1 hnamed, hmove⟩
    · cases hu
  · rintro ⟨hhash, row, hrow, hnamed, hmove⟩
    rw [update_eq_of_lawful h (List.ne_nil_of_mem hnamed.2) hhash]
    rw [if_pos (any_stuck_iff.2 ⟨row, hrow, named_iff.2 hnamed, hmove⟩)]

/-- An update succeeds if and only if it has the hash that it needs and each of its ids is given once and is that of a
row of the chain that may move to the state. Then exactly these rows have moved. The guard of the table stops it if and
only if one of the rows that it names may not move there. -/
theorem update_ok_iff (h : store.Lawful) (chainId : String) (ids : List MsgId) (state : MsgState)
    (txHash : Option String) :
    ((store.update chainId ids state txHash).1 = .ok () ↔
      (state = .broadcasted → txHash ≠ none) ∧ (ids = [] ∨ store.Movable chainId ids state)) ∧
    ((store.update chainId ids state txHash).1 = .ok () →
      store.Moves chainId ids state txHash (store.update chainId ids state txHash).2) ∧
    ((store.update chainId ids state txHash).1 = .error (.database .rejectedTransition) ↔
      (state = .broadcasted → txHash ≠ none) ∧
        ∃ row ∈ store.rows, (row.chainId = chainId ∧ row.id ∈ ids) ∧ row.state.canMoveTo state = false) := by
  refine ⟨⟨fun hu => ?_, ?_⟩, fun hu => ?_, update_rejected_iff h⟩
  · obtain ⟨hhash, hids⟩ := movable_of_update_ok h hu
    exact ⟨hhash, .inr hids⟩
  · rintro ⟨hhash, rfl | hids⟩
    · rw [update_nil hhash]
    · rw [hids.update_eq h hhash]
  · obtain ⟨hhash, hids⟩ := movable_of_update_ok h hu
    rw [hids.update_eq h hhash]
    exact moves_moved (hids.canMoveTo h)

/-- Two messages of one chain, of which one is started, and one of another chain. -/
def threeMessages : Store :=
  ((oneMessage.insert "chain" "contract" "type" [2] 0).2.insert "other" "contract" "type" [3] 0).2.update "chain" [2]
    .started none |>.2

theorem lawful_threeMessages : threeMessages.Lawful := by
  have hsecond := evolves_insert lawful_oneMessage "chain" "contract" "type" [2] 0
  have hthird := evolves_insert hsecond.lawful "other" "contract" "type" [3] 0
  exact (evolves_update hthird.lawful "chain" [2] .started none).lawful

/-- Both messages of the chain are errored together, and the hash is ignored; with the message of the other chain among
them, or with one of them named twice, they cannot be moved. -/
theorem update_ok_iff_of_threeMessages :
    (threeMessages.update "chain" [2, 1] .errored (some "hash")).1 = .ok () ∧
      threeMessages.Moves "chain" [2, 1] .errored (some "hash")
        (threeMessages.update "chain" [2, 1] .errored (some "hash")).2 ∧
      ¬threeMessages.Movable "chain" [1, 3] .errored ∧ ¬threeMessages.Movable "chain" [2, 1, 2] .errored := by
  have hok : (threeMessages.update "chain" [2, 1] .errored (some "hash")).1 = .ok () := by decide +kernel
  have hforeign : (threeMessages.update "chain" [1, 3] .errored none).1 ≠ .ok () := by decide +kernel
  have htwice : (threeMessages.update "chain" [2, 1, 2] .errored none).1 ≠ .ok () := by decide +kernel
  refine ⟨hok, (update_ok_iff lawful_threeMessages _ _ _ _).2.1 hok, fun hids => ?_, fun hids => ?_⟩
  · exact hforeign ((update_ok_iff lawful_threeMessages _ _ _ _).1.2 ⟨nofun, .inr hids⟩)
  · exact htwice ((update_ok_iff lawful_threeMessages _ _ _ _).1.2 ⟨nofun, .inr hids⟩)

end Store

end ReportRelay
