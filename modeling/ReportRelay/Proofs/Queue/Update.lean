import Mathlib.Data.List.Perm.Subperm
import ReportRelay.Proofs.Queue.Evolution

/-!
# Updates of named rows

An update that succeeds has moved a row for each of its ids. What an update does to the rows that it names does
not depend on the other rows, and the other rows do not notice it.
-/

namespace ReportRelay.Store

variable {store later : Store} {chainId : String} {ids only : List MsgId} {selected : Row → Bool}
  {state : MsgState} {txHash : Option String}

def named (chainId : String) (ids : List MsgId) (row : Row) : Bool :=
  decide (row.chainId = chainId ∧ row.id ∈ ids)

theorem named_iff {row : Row} : named chainId ids row = true ↔ row.chainId = chainId ∧ row.id ∈ ids :=
  decide_eq_true_iff

theorem moved_nil : store.moved (named chainId []) state txHash = store :=
  moved_of_none fun _ _ hnamed => List.not_mem_nil (named_iff.1 hnamed).2

@[simp] theorem named_moveTo {row : Row} : named chainId ids (row.moveTo state txHash) = named chainId ids row := by
  simp [named]

theorem named_append {ids' : List MsgId} {row : Row} :
    named chainId (ids ++ ids') row = (named chainId ids row || named chainId ids' row) := by
  rw [Bool.eq_iff_iff, Bool.or_eq_true, named_iff, named_iff, named_iff, List.mem_append, and_or_left]

theorem moved_append {ids' : List MsgId} : (store.moved (named chainId ids) .errored none).moved
    (named chainId ids') .errored none = store.moved (named chainId (ids ++ ids')) .errored none := by
  unfold moved
  rw [List.map_map]
  congr 1
  refine List.map_congr_left fun row _ => ?_
  dsimp only [Function.comp_apply]
  rw [named_append]
  -- a row that both lists name is errored twice, which is as good as once
  cases hfirst : named chainId ids row with
  | false => rfl
  | true =>
    rw [if_pos rfl, named_moveTo, Bool.true_or, if_pos rfl]
    split <;> rfl

theorem subset_ids : (store.rows.filter (named chainId ids)).map Row.id ⊆ ids := by
  intro id hid
  obtain ⟨row, hrow, rfl⟩ := List.mem_map.1 hid
  exact (named_iff.1 (List.mem_filter.1 hrow).2).2

theorem Lawful.nodup_named (h : store.Lawful) :
    ((store.rows.filter (named chainId ids)).map Row.id).Nodup :=
  h.nodup_ids.sublist (List.filter_sublist.map Row.id)

/-- When as many rows are named as there are ids, each id is given once and names one of them. -/
theorem perm_ids_of_length_eq (h : store.Lawful)
    (hlength : (store.rows.filter (named chainId ids)).length = ids.length) :
    ((store.rows.filter (named chainId ids)).map Row.id).Perm ids := by
  apply (List.Nodup.subperm h.nodup_named subset_ids).perm_of_length_le
  exact Nat.le_of_eq (by rw [List.length_map, hlength])

theorem mem_ids_of_length_eq (h : store.Lawful)
    (hlength : (store.rows.filter (named chainId ids)).length = ids.length) {id : MsgId} (hid : id ∈ ids) :
    ∃ row ∈ store.rows, row.chainId = chainId ∧ row.id = id := by
  obtain ⟨row, hrow, rfl⟩ := List.mem_map.1 ((perm_ids_of_length_eq h hlength).mem_iff.2 hid)
  obtain ⟨hmem, hnamed⟩ := List.mem_filter.1 hrow
  exact ⟨row, hmem, (named_iff.1 hnamed).1, rfl⟩

theorem length_eq_of_mem_ids (h : store.Lawful) (hnodup : ids.Nodup)
    (hall : ∀ id ∈ ids, ∃ row ∈ store.rows, row.chainId = chainId ∧ row.id = id) :
    (store.rows.filter (named chainId ids)).length = ids.length := by
  have hperm : ((store.rows.filter (named chainId ids)).map Row.id).Perm ids := by
    refine (List.perm_ext_iff_of_nodup h.nodup_named hnodup).2 fun id => ⟨fun hid => subset_ids hid, ?_⟩
    intro hid
    obtain ⟨row, hrow, hchain, rfl⟩ := hall id hid
    exact List.mem_map.2 ⟨row, List.mem_filter.2 ⟨hrow, named_iff.2 ⟨hchain, hid⟩⟩, rfl⟩
  rw [← hperm.length_eq, List.length_map]

/-! ## What an update does -/

theorem update_nil (hhash : state = .broadcasted → txHash ≠ none) :
    store.update chainId [] state txHash = (.ok (), store) := by
  unfold update
  rw [if_neg fun hmissing => hhash hmissing.1 hmissing.2]
  rfl

theorem update_eq (hids : ids ≠ []) (hhash : state = .broadcasted → txHash ≠ none) :
    store.update chainId ids state txHash =
      match store.moveWhere (named chainId ids) state txHash with
      | (.error e, store) => (.error e, store)
      | (.ok moved, store) =>
        if moved = ids.length then (.ok (), store)
        else (.error (.rowCountMismatch ids.length moved), store) := by
  unfold update
  rw [if_neg fun hmissing => hhash hmissing.1 hmissing.2,
    if_neg fun hempty => hids (List.isEmpty_iff.1 hempty)]
  rfl

/-- An update either moves all rows that it names, each along the life cycle, or changes nothing. It succeeds
only if it moves a row for each id. -/
theorem update_cases (h : store.Lawful) (chainId : String) (ids : List MsgId) (state : MsgState)
    (txHash : Option String) :
    ((store.update chainId ids state txHash).2 = store.moved (named chainId ids) state txHash ∧
      (∀ row ∈ store.rows, named chainId ids row = true →
        row.state.canMoveTo state = true ∧ (row.moveTo state txHash).Checked) ∧
      ((store.update chainId ids state txHash).1 = .ok () →
        ∀ id ∈ ids, ∃ row ∈ store.rows, row.chainId = chainId ∧ row.id = id)) ∨
    ∃ e, store.update chainId ids state txHash = (.error e, store) := by
  by_cases hhash : state = .broadcasted → txHash ≠ none
  · rcases eq_or_ne ids [] with rfl | hids
    · rw [update_nil hhash]
      exact .inl ⟨moved_nil.symm, fun row _ hnamed => absurd (named_iff.1 hnamed).2 List.not_mem_nil, nofun⟩
    · rw [update_eq hids hhash]
      rcases moveWhere_cases h (named chainId ids) state txHash with
        ⟨heq, hall⟩ | ⟨⟨e, heq⟩, _⟩
      · rw [heq]
        dsimp only
        split_ifs with hlength
        · exact .inl ⟨rfl, hall, fun _ id hid => mem_ids_of_length_eq h hlength hid⟩
        · exact .inl ⟨rfl, hall, nofun⟩
      · rw [heq]
        exact .inr ⟨e, rfl⟩
  · refine .inr ⟨.missingTxHash, ?_⟩
    unfold update
    rw [if_pos (by simpa using hhash)]

theorem update_ok (h : store.Lawful)
    (hu : store.update chainId ids state txHash = (.ok (), later)) :
    later = store.moved (named chainId ids) state txHash ∧
      (∀ row ∈ store.rows, named chainId ids row = true →
        row.state.canMoveTo state = true ∧ (row.moveTo state txHash).Checked) ∧
      ∀ id ∈ ids, ∃ row ∈ store.rows, row.chainId = chainId ∧ row.id = id := by
  rcases update_cases h chainId ids state txHash with
    ⟨heq, hall, hids⟩ | ⟨e, heq⟩
  · rw [hu] at heq hids
    exact ⟨heq, hall, hids rfl⟩
  · rw [hu] at heq
    cases heq

/-- Every id is given once and is that of a row of the chain that may move to the state. -/
structure Movable (chainId : String) (ids : List MsgId) (state : MsgState) (store : Store) : Prop where
  nodup : ids.Nodup
  rows : ∀ id ∈ ids, ∃ row ∈ store.rows, row.chainId = chainId ∧ row.id = id ∧ row.state.canMoveTo state = true

theorem AllIn.movable {source : MsgState} (hall : store.AllIn chainId ids source) (hnodup : ids.Nodup)
    (hmove : source.canMoveTo state = true) : store.Movable chainId ids state := by
  refine ⟨hnodup, fun id hid => ?_⟩
  obtain ⟨row, hrow, hchain, hrowId, rfl⟩ := hall id hid
  exact ⟨row, hrow, hchain, hrowId, hmove⟩

/-- Rows that may all move are moved together. -/
theorem Movable.update_eq (hids : store.Movable chainId ids state) (h : store.Lawful)
    (hhash : state = .broadcasted → txHash ≠ none) :
    store.update chainId ids state txHash = (.ok (), store.moved (named chainId ids) state txHash) := by
  rcases eq_or_ne ids [] with rfl | hne
  · rw [update_nil hhash, moved_nil]
  · rw [Store.update_eq hne hhash]
    rcases moveWhere_cases h (named chainId ids) state txHash with
      ⟨heq, _⟩ | ⟨_, row, hrow, hnamed, hno⟩
    · rw [heq]
      dsimp only
      rw [if_pos (length_eq_of_mem_ids h hids.nodup fun id hid => ?_)]
      obtain ⟨row, hrow, hchain, hid, _⟩ := hids.rows id hid
      exact ⟨row, hrow, hchain, hid⟩
    · obtain ⟨row', hrow', _, hid, hmove⟩ := hids.rows row.id (named_iff.1 hnamed).2
      obtain rfl := h.eq_of_id_eq hrow' hrow hid
      exact absurd ⟨hmove, (h.checked _ hrow).moveTo hmove hhash⟩ hno

theorem allIn_moved (hall : ∀ id ∈ ids, ∃ row ∈ store.rows, row.chainId = chainId ∧ row.id = id) :
    (store.moved (named chainId ids) state txHash).AllIn chainId ids state := by
  intro id hid
  obtain ⟨row, hrow, hchain, rfl⟩ := hall id hid
  refine ⟨row.moveTo state txHash, mem_moved.2 ⟨row, hrow, if_pos (named_iff.2 ⟨hchain, hid⟩)⟩, ?_⟩
  exact ⟨Row.moveTo_chainId.trans hchain, Row.moveTo_id, Row.moveTo_state⟩

theorem AllIn.moved (h : store.AllIn chainId ids state) :
    (store.moved selected state txHash).AllIn chainId ids state := by
  intro id hid
  obtain ⟨row, hrow, hchain, rfl, hstate⟩ := h id hid
  refine ⟨_, mem_moved.2 ⟨row, hrow, rfl⟩, ?_⟩
  split_ifs
  · exact ⟨Row.moveTo_chainId.trans hchain, Row.moveTo_id, Row.moveTo_state⟩
  · exact ⟨hchain, rfl, hstate⟩

/-- The store later: the given messages, all of which it has, are errored, and nothing else is changed. -/
structure Errors (chainId : String) (ids : List MsgId) (store later : Store) : Prop where
  eq_moved : later = store.moved (named chainId ids) .errored none
  allIn : later.AllIn chainId ids .errored

theorem Errors.append {ids' : List MsgId} {final : Store} (h : store.Errors chainId ids later)
    (h' : later.Errors chainId ids' final) : store.Errors chainId (ids ++ ids') final := by
  obtain ⟨rfl, hall⟩ := h
  obtain ⟨rfl, hall'⟩ := h'
  exact ⟨moved_append, List.forall_mem_append.2 ⟨hall.moved, hall'⟩⟩

theorem Errors.mem_of_not_mem (h : store.Errors chainId ids later) {row : Row} (hrow : row ∈ store.rows)
    (hnot : row.id ∉ ids) : row ∈ later.rows := by
  rw [h.eq_moved]
  exact mem_moved.2 ⟨row, hrow, if_neg fun hnamed => hnot (named_iff.1 hnamed).2⟩

/-- What a row was before a move: itself, or one that the move has taken along the life cycle. -/
theorem mem_update (h : store.Lawful) {row' : Row}
    (hrow' : row' ∈ (store.update chainId ids state txHash).2.rows) :
    row' ∈ store.rows ∨ ∃ row ∈ store.rows, named chainId ids row = true ∧
      row.state.canMoveTo state = true ∧ row' = row.moveTo state txHash := by
  rcases update_cases h chainId ids state txHash with
    ⟨heq, hall, _⟩ | ⟨e, heq⟩
  · rw [heq] at hrow'
    obtain ⟨row, hrow, rfl⟩ := mem_moved.1 hrow'
    split_ifs with hnamed
    · exact .inr ⟨row, hrow, hnamed, (hall row hrow hnamed).1, rfl⟩
    · exact .inl hrow
  · rw [heq] at hrow'
    exact .inl hrow'

theorem updateAll_cases (store : Store) (chainId : String) (ids : List MsgId) (state : MsgState)
    (txHash : Option String) :
    (store.updateAll chainId ids state txHash = store.update chainId ids state txHash ∧
      (store.update chainId ids state txHash).1 = .ok ()) ∨
    ∃ e, store.updateAll chainId ids state txHash = (.error e, store) := by
  unfold updateAll
  split
  · next heq => exact .inl ⟨heq.symm, by rw [heq]⟩
  · next e _ _ => exact .inr ⟨e, rfl⟩

/-! ## Some rows alone -/

def restrict (only : List MsgId) (store : Store) : Store :=
  { store with rows := store.rows.filter fun row => row.id ∈ only }

theorem mem_restrict {row : Row} : row ∈ (store.restrict only).rows ↔ row ∈ store.rows ∧ row.id ∈ only := by
  simp [restrict]

theorem Lawful.restrict (h : store.Lawful) : (store.restrict only).Lawful where
  migrated := h.migrated
  ascending := h.ascending.sublist List.filter_sublist
  bounded row hrow := h.bounded row (mem_restrict.1 hrow).1
  checked row hrow := h.checked row (mem_restrict.1 hrow).1

theorem AllIn.restrict (h : store.AllIn chainId ids state) (hsubset : ∀ id ∈ ids, id ∈ only) :
    (store.restrict only).AllIn chainId ids state := by
  intro id hid
  obtain ⟨row, hrow, hchain, rfl, hstate⟩ := h id hid
  exact ⟨row, mem_restrict.2 ⟨hrow, hsubset _ hid⟩, hchain, rfl, hstate⟩

theorem restrict_moved (selected : Row → Bool) : (store.moved selected state txHash).restrict only =
    (store.restrict only).moved selected state txHash := by
  have hrows : (store.moved selected state txHash).rows.filter (fun row => row.id ∈ only) =
      (store.rows.filter fun row => row.id ∈ only).map fun row =>
        if selected row then row.moveTo state txHash else row :=
    filter_moved fun row => by rw [Row.moveTo_id]
  exact congrArg (fun rows => { store with rows }) hrows

theorem moved_restrict_of_outside (houtside : ∀ row, selected row = true → row.id ∉ only) :
    (store.restrict only).moved selected state txHash = store.restrict only :=
  moved_of_none fun row hrow hsel => houtside row hsel (mem_restrict.1 hrow).2

theorem filter_restrict (hinside : ∀ row, selected row = true → row.id ∈ only) :
    (store.restrict only).rows.filter selected = store.rows.filter selected :=
  filter_filter_of_imp fun row hsel => decide_eq_true (hinside row hsel)

theorem moveWhere_restrict (store : Store) (state : MsgState) (txHash : Option String)
    (hinside : ∀ row, selected row = true → row.id ∈ only) :
    (store.restrict only).moveWhere selected state txHash =
      ((store.moveWhere selected state txHash).1,
        (store.moveWhere selected state txHash).2.restrict only) := by
  unfold moveWhere
  rw [filter_restrict hinside]
  dsimp only
  have hmigrated : (store.restrict only).migrated = store.migrated := rfl
  rw [hmigrated]
  split_ifs
  · rfl
  · rfl
  · exact congrArg (Prod.mk _) (restrict_moved selected).symm
  · rfl

theorem restrict_moveWhere_of_outside (store : Store) (state : MsgState) (txHash : Option String)
    (houtside : ∀ row, selected row = true → row.id ∉ only) :
    (store.moveWhere selected state txHash).2.restrict only = store.restrict only := by
  unfold moveWhere
  dsimp only
  split_ifs
  · rfl
  · rfl
  · exact (restrict_moved selected).trans (moved_restrict_of_outside houtside)
  · rfl

/-- An update of some of the rows needs no others. -/
theorem update_restrict (hinside : ∀ id ∈ ids, id ∈ only) :
    (store.restrict only).update chainId ids state txHash =
      ((store.update chainId ids state txHash).1,
        (store.update chainId ids state txHash).2.restrict only) := by
  unfold update
  have hinsideRow (row : Row) (hsel : decide (row.chainId = chainId ∧ row.id ∈ ids) = true) : row.id ∈ only :=
    hinside row.id (of_decide_eq_true hsel).2
  have hmove := moveWhere_restrict store state txHash hinsideRow
  split_ifs
  · rfl
  · rfl
  · rw [hmove]
    rcases store.moveWhere (fun row => decide (row.chainId = chainId ∧ row.id ∈ ids)) state txHash with
      ⟨_ | moved, later⟩
    · rfl
    · dsimp only
      split_ifs <;> rfl

theorem restrict_update_of_outside (store : Store) (chainId : String) (state : MsgState)
    (txHash : Option String) (houtside : ∀ id ∈ ids, id ∉ only) :
    (store.update chainId ids state txHash).2.restrict only = store.restrict only := by
  unfold update
  have houtsideRow (row : Row) (hsel : decide (row.chainId = chainId ∧ row.id ∈ ids) = true) : row.id ∉ only :=
    houtside row.id (of_decide_eq_true hsel).2
  have hmove := restrict_moveWhere_of_outside store state txHash houtsideRow
  split_ifs
  · rfl
  · rfl
  · revert hmove
    rcases store.moveWhere (fun row => decide (row.chainId = chainId ∧ row.id ∈ ids)) state txHash with
      ⟨_ | moved, later⟩
    · exact id
    · dsimp only
      split_ifs <;> exact id

theorem updateAll_restrict (hinside : ∀ id ∈ ids, id ∈ only) :
    (store.restrict only).updateAll chainId ids state txHash =
      ((store.updateAll chainId ids state txHash).1,
        (store.updateAll chainId ids state txHash).2.restrict only) := by
  unfold updateAll
  rw [update_restrict hinside]
  rcases store.update chainId ids state txHash with ⟨_ | _, later⟩ <;> rfl

theorem restrict_updateAll_of_outside (store : Store) (chainId : String) (state : MsgState)
    (txHash : Option String) (houtside : ∀ id ∈ ids, id ∉ only) :
    (store.updateAll chainId ids state txHash).2.restrict only = store.restrict only := by
  have hupdate := restrict_update_of_outside store chainId state txHash houtside
  unfold updateAll
  revert hupdate
  rcases store.update chainId ids state txHash with ⟨_ | _, later⟩
  · exact fun _ => rfl
  · exact id

end ReportRelay.Store
