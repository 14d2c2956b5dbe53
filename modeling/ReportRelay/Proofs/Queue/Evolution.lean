import Mathlib.Data.List.Nodup
import Mathlib.Logic.Relation
import ReportRelay.Queue.Store

/-!
# How the rows of a store evolve

A lawful store is one that the constraints of its table allow. Every operation keeps a store lawful and moves
its rows only along the life cycle, whatever it is asked to do and whether or not it succeeds.
-/

namespace ReportRelay

namespace MsgState

/-- One state is reached from another by any number of moves. -/
def LeadsTo (source target : MsgState) : Prop :=
  Relation.ReflTransGen (fun a b : MsgState => a.canMoveTo b = true) source target

/-- The states ahead of a state, itself among them. -/
def ahead : MsgState → List MsgState
  | unstarted => [unstarted, started, broadcasted, confirmed, errored]
  | started => [started, broadcasted, confirmed, errored]
  | broadcasted => [broadcasted, confirmed, errored]
  | confirmed => [confirmed]
  | errored => [errored]

theorem LeadsTo.mem_ahead {source target : MsgState} (h : source.LeadsTo target) :
    target ∈ source.ahead := by
  induction h with
  | refl => cases source <;> simp [ahead]
  | @tail middle target _ hmove ih =>
    revert hmove ih
    cases source <;> cases middle <;> cases target <;> decide

theorem LeadsTo.eq_of_isTerminal {source target : MsgState} (h : source.LeadsTo target)
    (hs : source.isTerminal = true) : target = source := by
  have hmem := h.mem_ahead
  revert hs hmem
  cases source <;> cases target <;> decide

theorem isTerminal_iff {state : MsgState} : state.isTerminal = true ↔ state = confirmed ∨ state = errored := by
  cases state <;> simp [isTerminal]

theorem LeadsTo.eq_unstarted {source : MsgState} (h : source.LeadsTo .unstarted) :
    source = .unstarted := by
  have hmem := h.mem_ahead
  revert hmem
  cases source <;> decide

/-- A state in which a message is never sent again. -/
def isSpent : MsgState → Bool
  | broadcasted | confirmed | errored => true
  | _ => false

theorem LeadsTo.isSpent {source target : MsgState} (h : source.LeadsTo target)
    (hs : source.isSpent = true) : target.isSpent = true := by
  have hmem := h.mem_ahead
  revert hs hmem
  cases source <;> cases target <;> decide

end MsgState

/-- The guard of the table lets pass the edges of the life cycle and nothing else. -/
theorem Table.admits_eq_canMoveTo (source target : MsgState) : admits source target = source.canMoveTo target := by
  cases source <;> cases target <;> rfl

namespace Row

variable {row : Row} {state : MsgState} {txHash : Option String}

@[simp] theorem moveTo_id : (row.moveTo state txHash).id = row.id := by
  cases state <;> rfl

@[simp] theorem moveTo_chainId : (row.moveTo state txHash).chainId = row.chainId := by
  cases state <;> rfl

@[simp] theorem moveTo_contractId : (row.moveTo state txHash).contractId = row.contractId := by
  cases state <;> rfl

@[simp] theorem moveTo_typeUrl : (row.moveTo state txHash).typeUrl = row.typeUrl := by
  cases state <;> rfl

@[simp] theorem moveTo_raw : (row.moveTo state txHash).raw = row.raw := by
  cases state <;> rfl

@[simp] theorem moveTo_createdAt : (row.moveTo state txHash).createdAt = row.createdAt := by
  cases state <;> rfl

@[simp] theorem moveTo_state : (row.moveTo state txHash).state = state := by
  cases state <;> rfl

theorem checked_iff :
    row.Checked ↔ (row.txHash.isSome ↔ row.state = .broadcasted ∨ row.state = .confirmed) := by
  unfold Checked
  cases row.state <;> cases row.txHash <;> simp [MsgState.hasTxHash]

/-- A move along the life cycle keeps a row checked if it brings the hash that it needs. -/
theorem Checked.moveTo (hrow : row.Checked) (hmove : row.state.canMoveTo state = true)
    (hhash : state = .broadcasted → txHash ≠ none) : (row.moveTo state txHash).Checked := by
  cases state with
  | broadcasted =>
    obtain ⟨hash, rfl⟩ := Option.ne_none_iff_exists'.1 (hhash rfl)
    rfl
  | confirmed =>
    have hstate : row.state = .broadcasted := by
      revert hmove
      cases row.state <;> decide
    rw [Checked, hstate] at hrow
    exact hrow
  | unstarted | started | errored => rfl

/-- A row and what it is later: the message stays the same, its state only moves along the life cycle, and a
transaction hash stays until the message is errored. -/
structure Evolves (row later : Row) : Prop where
  id : later.id = row.id
  chainId : later.chainId = row.chainId
  contractId : later.contractId = row.contractId
  typeUrl : later.typeUrl = row.typeUrl
  raw : later.raw = row.raw
  createdAt : later.createdAt = row.createdAt
  state : row.state.LeadsTo later.state
  txHash : ∀ h, row.txHash = some h →
    later.txHash = some h ∨ later.state = .errored ∧ later.txHash = none

namespace Evolves

theorem refl (row : Row) : row.Evolves row :=
  ⟨rfl, rfl, rfl, rfl, rfl, rfl, .refl, fun _ => .inl⟩

theorem trans {a b c : Row} (hab : a.Evolves b) (hbc : b.Evolves c) (hc : c.Checked) :
    a.Evolves c where
  id := hbc.id.trans hab.id
  chainId := hbc.chainId.trans hab.chainId
  contractId := hbc.contractId.trans hab.contractId
  typeUrl := hbc.typeUrl.trans hab.typeUrl
  raw := hbc.raw.trans hab.raw
  createdAt := hbc.createdAt.trans hab.createdAt
  state := hab.state.trans hbc.state
  txHash h ha := by
    rcases hab.txHash h ha with hb | ⟨hb, _⟩
    · exact hbc.txHash h hb
    · have herrored := hbc.state.eq_of_isTerminal (by rw [hb]; rfl)
      rw [hb] at herrored
      rw [Checked, herrored] at hc
      exact .inr ⟨herrored, by simpa [MsgState.hasTxHash] using hc.symm⟩

theorem of_moveTo (hrow : row.Checked) (hmove : row.state.canMoveTo state = true)
    (hchecked : (row.moveTo state txHash).Checked) : row.Evolves (row.moveTo state txHash) where
  id := moveTo_id
  chainId := moveTo_chainId
  contractId := moveTo_contractId
  typeUrl := moveTo_typeUrl
  raw := moveTo_raw
  createdAt := moveTo_createdAt
  state := by
    rw [moveTo_state]
    exact .single hmove
  txHash h hh := by
    have hstate : row.state.hasTxHash = true := by rw [hrow, hh]; rfl
    cases state with
    | confirmed => exact .inl hh
    | errored => exact .inr ⟨rfl, rfl⟩
    | unstarted | started | broadcasted =>
      revert hmove hstate
      cases row.state <;> simp [MsgState.canMoveTo, MsgState.hasTxHash]

end Evolves

end Row

namespace Store

/-- What the constraints of the table say: rows in the order of their ids, no id given out twice, and a
transaction hash exactly in the states that have one. -/
structure Lawful (store : Store) : Prop where
  migrated : store.migrated = true
  ascending : store.rows.Pairwise (·.id < ·.id)
  bounded : ∀ row ∈ store.rows, row.id ≤ store.lastId
  checked : ∀ row ∈ store.rows, row.Checked

/-- A store and what it is later: no row is lost, and a new one has a new id. -/
structure Evolves (store later : Store) : Prop where
  lawful : later.Lawful
  kept : ∀ row ∈ store.rows, ∃ row' ∈ later.rows, row.Evolves row'
  known : ∀ row' ∈ later.rows, row'.id ≤ store.lastId → ∃ row ∈ store.rows, row.Evolves row'
  lastId : store.lastId ≤ later.lastId

variable {store : Store} {selected : Row → Bool} {state : MsgState} {txHash : Option String}

theorem lawful_new : new.migrate.2.Lawful :=
  ⟨rfl, .nil, List.forall_mem_nil _, List.forall_mem_nil _⟩

theorem Lawful.nodup_ids (h : store.Lawful) : (store.rows.map Row.id).Nodup :=
  List.pairwise_map.2 (h.ascending.imp fun hlt => Int.ne_of_lt hlt)

theorem Lawful.eq_of_id_eq (h : store.Lawful) {a b : Row} (ha : a ∈ store.rows)
    (hb : b ∈ store.rows) (hid : a.id = b.id) : a = b :=
  List.inj_on_of_nodup_map h.nodup_ids ha hb hid

theorem Evolves.refl (h : store.Lawful) : store.Evolves store :=
  ⟨h, fun row hrow => ⟨row, hrow, .refl row⟩, fun row hrow _ => ⟨row, hrow, .refl row⟩,
    Int.le_refl _⟩

theorem Evolves.trans {a b c : Store} (hab : a.Evolves b) (hbc : b.Evolves c) : a.Evolves c where
  lawful := hbc.lawful
  kept row hrow := by
    obtain ⟨row', hrow', h⟩ := hab.kept row hrow
    obtain ⟨row'', hrow'', h'⟩ := hbc.kept row' hrow'
    exact ⟨row'', hrow'', h.trans h' (hbc.lawful.checked row'' hrow'')⟩
  known row'' hrow'' hid := by
    obtain ⟨row', hrow', h'⟩ := hbc.known row'' hrow'' (Int.le_trans hid hab.lastId)
    obtain ⟨row, hrow, h⟩ := hab.known row' hrow' (h'.id ▸ hid)
    exact ⟨row, hrow, h.trans h' (hbc.lawful.checked row'' hrow'')⟩
  lastId := Int.le_trans hab.lastId hbc.lastId

def Spent (id : MsgId) (store : Store) : Prop :=
  ∃ row ∈ store.rows, row.id = id ∧ row.state.isSpent = true

theorem Evolves.of_id_eq {later : Store} {row row' : Row} (h : store.Evolves later) (hrow : row ∈ store.rows)
    (hrow' : row' ∈ later.rows) (hid : row'.id = row.id) : row.Evolves row' := by
  obtain ⟨other, hother, hevolves⟩ := h.kept row hrow
  obtain rfl := h.lawful.eq_of_id_eq hother hrow' (hevolves.id.trans hid.symm)
  exact hevolves

theorem Evolves.spent {later : Store} {id : MsgId} (h : store.Evolves later) (hspent : store.Spent id) :
    later.Spent id := by
  obtain ⟨row, hrow, rfl, hstate⟩ := hspent
  obtain ⟨row', hrow', hevolves⟩ := h.kept row hrow
  exact ⟨row', hrow', hevolves.id, hevolves.state.isSpent hstate⟩

theorem Lawful.not_spent {row : Row} (h : store.Lawful) (hrow : row ∈ store.rows)
    (hstate : row.state.isSpent = false) : ¬store.Spent row.id := by
  rintro ⟨row', hrow', hid, hspent⟩
  obtain rfl := h.eq_of_id_eq hrow' hrow hid
  rw [hstate] at hspent
  cases hspent

/-- Every id is that of a row of the chain in the given state. -/
def AllIn (chainId : String) (ids : List MsgId) (state : MsgState) (store : Store) : Prop :=
  ∀ id ∈ ids, ∃ row ∈ store.rows, row.chainId = chainId ∧ row.id = id ∧ row.state = state

theorem AllIn.spent {chainId : String} {ids : List MsgId} {state : MsgState} (h : store.AllIn chainId ids state)
    (hstate : state.isSpent = true) : ∀ id ∈ ids, store.Spent id := by
  intro id hid
  obtain ⟨row, hrow, _, hrowId, rfl⟩ := h id hid
  exact ⟨row, hrow, hrowId, hstate⟩

/-! ## Moves -/

def moved (selected : Row → Bool) (state : MsgState) (txHash : Option String) (store : Store) :
    Store :=
  { store with
    rows := store.rows.map fun row => if selected row then row.moveTo state txHash else row }

theorem mem_moved {row' : Row} : row' ∈ (store.moved selected state txHash).rows ↔
    ∃ row ∈ store.rows, (if selected row then row.moveTo state txHash else row) = row' :=
  List.mem_map

theorem map_of_none {rows : List Row} (hnone : ∀ row ∈ rows, ¬selected row = true) :
    (rows.map fun row => if selected row then row.moveTo state txHash else row) = rows := by
  conv_rhs => rw [← List.map_id rows]
  apply List.map_congr_left
  intro row hrow
  rw [if_neg (hnone row hrow), id]

theorem moved_of_none (hnone : ∀ row ∈ store.rows, ¬selected row = true) :
    store.moved selected state txHash = store := by
  rw [moved, map_of_none hnone]

/-- A move among rows that stay what they are takes place there as well. -/
theorem filter_moved {keep : Row → Bool} (hkeep : ∀ row : Row, keep (row.moveTo state txHash) = keep row) :
    (store.moved selected state txHash).rows.filter keep =
      (store.rows.filter keep).map fun row => if selected row then row.moveTo state txHash else row := by
  rw [moved, List.filter_map]
  congr 2
  funext row
  dsimp only [Function.comp_apply]
  split_ifs
  · exact hkeep row
  · rfl

theorem filter_filter_of_imp {rows : List Row} {keep : Row → Bool} (himp : ∀ row, selected row = true → keep row = true) :
    (rows.filter keep).filter selected = rows.filter selected := by
  rw [List.filter_filter]
  apply List.filter_congr
  intro row _
  cases hsel : selected row with
  | false => rfl
  | true => exact himp row hsel

/-- A bulk move either moves all selected rows, each along the life cycle, or changes nothing. -/
theorem moveWhere_cases (h : store.Lawful) (selected : Row → Bool) (state : MsgState)
    (txHash : Option String) :
    (store.moveWhere selected state txHash =
        (.ok (store.rows.filter selected).length, store.moved selected state txHash) ∧
      ∀ row ∈ store.rows, selected row = true →
        row.state.canMoveTo state = true ∧ (row.moveTo state txHash).Checked) ∨
    (∃ e, store.moveWhere selected state txHash = (.error e, store)) ∧
      ∃ row ∈ store.rows, selected row = true ∧
        ¬(row.state.canMoveTo state = true ∧ (row.moveTo state txHash).Checked) := by
  unfold moveWhere
  rw [if_pos h.migrated]
  simp only [Table.admits_eq_canMoveTo]
  split_ifs with hmove hcheck
  · obtain ⟨row, hrow, hno⟩ := List.any_eq_true.1 hmove
    obtain ⟨hmem, hsel⟩ := List.mem_filter.1 hrow
    exact .inr ⟨⟨_, rfl⟩, row, hmem, hsel, fun hyes => by simp [hyes.1] at hno⟩
  · obtain ⟨row, hrow, hno⟩ := List.any_eq_true.1 hcheck
    obtain ⟨hmem, hsel⟩ := List.mem_filter.1 hrow
    exact .inr ⟨⟨_, rfl⟩, row, hmem, hsel, fun hyes => by simp [hyes.2] at hno⟩
  · refine .inl ⟨rfl, fun row hrow hsel => ?_⟩
    have hmem : row ∈ store.rows.filter selected := List.mem_filter.2 ⟨hrow, hsel⟩
    constructor
    · by_contra hno
      exact hmove (List.any_eq_true.2 ⟨row, hmem, by simp [hno]⟩)
    · by_contra hno
      exact hcheck (List.any_eq_true.2 ⟨row, hmem, by simp [hno]⟩)

theorem evolves_moved (h : store.Lawful)
    (hall : ∀ row ∈ store.rows, selected row = true →
      row.state.canMoveTo state = true ∧ (row.moveTo state txHash).Checked) :
    store.Evolves (store.moved selected state txHash) := by
  have evolves (row : Row) (hrow : row ∈ store.rows) :
      row.Evolves (if selected row then row.moveTo state txHash else row) := by
    split_ifs with hsel
    · exact .of_moveTo (h.checked row hrow) (hall row hrow hsel).1 (hall row hrow hsel).2
    · exact .refl row
  refine ⟨⟨h.migrated, ?_, ?_, ?_⟩, ?_, ?_, Int.le_refl _⟩
  · refine List.pairwise_map.2 (h.ascending.imp_of_mem fun ha hb hlt => ?_)
    rwa [(evolves _ ha).id, (evolves _ hb).id]
  · intro row' hrow'
    obtain ⟨row, hrow, rfl⟩ := mem_moved.1 hrow'
    rw [(evolves row hrow).id]
    exact h.bounded row hrow
  · intro row' hrow'
    obtain ⟨row, hrow, rfl⟩ := mem_moved.1 hrow'
    split_ifs with hsel
    · exact (hall row hrow hsel).2
    · exact h.checked row hrow
  · exact fun row hrow => ⟨_, mem_moved.2 ⟨row, hrow, rfl⟩, evolves row hrow⟩
  · intro row' hrow' _
    obtain ⟨row, hrow, rfl⟩ := mem_moved.1 hrow'
    exact ⟨row, hrow, evolves row hrow⟩

theorem evolves_moveWhere (h : store.Lawful) (selected : Row → Bool) (state : MsgState)
    (txHash : Option String) : store.Evolves (store.moveWhere selected state txHash).2 := by
  rcases moveWhere_cases h selected state txHash with ⟨heq, hall⟩ | ⟨⟨e, heq⟩, _⟩
  · rw [heq]
    exact evolves_moved h hall
  · rw [heq]
    exact .refl h

/-! ## The operations -/

theorem evolves_insert (h : store.Lawful) (chainId contractId typeUrl : String) (raw : Bytes)
    (now : Int) : store.Evolves (store.insert chainId contractId typeUrl raw now).2 := by
  unfold insert
  rw [if_pos h.migrated]
  dsimp only
  refine ⟨⟨h.migrated, ?_, ?_, ?_⟩, ?_, ?_, Int.le_of_lt (Int.lt_succ _)⟩
  · refine List.pairwise_append.2 ⟨h.ascending, List.pairwise_singleton _ _, ?_⟩
    intro a ha b hb
    obtain rfl := List.mem_singleton.1 hb
    exact Int.lt_add_one_of_le (h.bounded a ha)
  · intro row hrow
    rcases List.mem_append.1 hrow with hrow | hrow
    · exact Int.le_of_lt (Int.lt_add_one_of_le (h.bounded row hrow))
    · obtain rfl := List.mem_singleton.1 hrow
      exact Int.le_refl _
  · intro row hrow
    rcases List.mem_append.1 hrow with hrow | hrow
    · exact h.checked row hrow
    · obtain rfl := List.mem_singleton.1 hrow
      rfl
  · exact fun row hrow => ⟨row, List.mem_append_left _ hrow, .refl row⟩
  · intro row hrow hid
    rcases List.mem_append.1 hrow with hrow | hrow
    · exact ⟨row, hrow, .refl row⟩
    · obtain rfl := List.mem_singleton.1 hrow
      exact absurd hid (Int.not_le.2 (Int.lt_succ _))

theorem evolves_update (h : store.Lawful) (chainId : String) (ids : List MsgId) (state : MsgState)
    (txHash : Option String) : store.Evolves (store.update chainId ids state txHash).2 := by
  unfold update
  split_ifs
  · exact .refl h
  · exact .refl h
  · have hmoved := evolves_moveWhere h (fun row => decide (row.chainId = chainId ∧ row.id ∈ ids)) state
      txHash
    split
    · next heq => rwa [heq] at hmoved
    · next heq =>
      rw [heq] at hmoved
      split_ifs <;> exact hmoved

theorem evolves_updateAll (h : store.Lawful) (chainId : String) (ids : List MsgId)
    (state : MsgState) (txHash : Option String) :
    store.Evolves (store.updateAll chainId ids state txHash).2 := by
  have hupdate := evolves_update h chainId ids state txHash
  unfold updateAll
  split
  · next heq => rwa [heq] at hupdate
  · exact .refl h

theorem evolves_updateContract (h : store.Lawful) (chainId contractId : String)
    (source target : MsgState) :
    store.Evolves (store.updateContract chainId contractId source target).2 := by
  unfold updateContract
  split_ifs
  · exact .refl h
  · exact evolves_moveWhere h _ _ _
  · exact .refl h

theorem evolves_execute (h : store.Lawful) (chainId : String) (statement : Statement) :
    store.Evolves (store.execute chainId statement).2 := by
  cases statement with
  | insert contractId typeUrl raw now => exact evolves_insert h chainId contractId typeUrl raw now
  | load state limit => exact .refl h
  | find ids => exact .refl h
  | update ids state txHash => exact evolves_update h chainId ids state txHash

end Store

end ReportRelay
