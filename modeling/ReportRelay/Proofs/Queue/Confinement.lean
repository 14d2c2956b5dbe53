import ReportRelay.Proofs.Queue.Evolution

/-!
# Operations that keep to the rows of one chain

All chains have their rows in one table. An operation that is confined to a chain neither changes nor sees the rows
of the others. Every operation is, but for an insert, which takes its id from the counter that all chains share.
-/

namespace ReportRelay

def Row.ownedBy (chainId : String) (row : Row) : Bool :=
  decide (row.chainId = chainId)

namespace Store

variable {store a b : Store} {chainId : String} {selected : Row → Bool} {state : MsgState} {txHash : Option String}
  {ρ τ : Type}

/-! ## The rows of a chain -/

def chainRows (chainId : String) (store : Store) : List Row :=
  store.rows.filter (Row.ownedBy chainId)

def otherRows (chainId : String) (store : Store) : List Row :=
  store.rows.filter fun row => !row.ownedBy chainId

theorem mem_chainRows {row : Row} : row ∈ store.chainRows chainId ↔ row ∈ store.rows ∧ row.chainId = chainId := by
  rw [chainRows, List.mem_filter, Row.ownedBy, decide_eq_true_iff]

theorem filter_chainRows (hown : ∀ row, selected row = true → row.chainId = chainId) :
    (store.chainRows chainId).filter selected = store.rows.filter selected :=
  filter_filter_of_imp fun row hsel => decide_eq_true (hown row hsel)

theorem chainRows_of_otherRows {other : String} (hne : chainId ≠ other)
    (h : a.otherRows other = b.otherRows other) : a.chainRows chainId = b.chainRows chainId := by
  have hforeign (row : Row) (howned : row.ownedBy chainId = true) : (!row.ownedBy other) = true := by
    have hchain : row.chainId = chainId := of_decide_eq_true howned
    rw [Row.ownedBy, hchain, decide_eq_false hne]
    rfl
  calc a.chainRows chainId = (a.otherRows other).filter (Row.ownedBy chainId) := (filter_filter_of_imp hforeign).symm
    _ = (b.otherRows other).filter (Row.ownedBy chainId) := by rw [h]
    _ = b.chainRows chainId := filter_filter_of_imp hforeign

/-- The store without the rows of the other chains. -/
def alone (chainId : String) (store : Store) : Store :=
  { store with rows := store.chainRows chainId }

/-- A chain finds the same table and the same rows of its own in both stores. -/
structure AlikeFor (chainId : String) (a b : Store) : Prop where
  table : a.table = b.table
  rows : a.chainRows chainId = b.chainRows chainId

namespace AlikeFor

theorem alone (chainId : String) (store : Store) : AlikeFor chainId (store.alone chainId) store := by
  refine ⟨rfl, ?_⟩
  rw [chainRows, Store.alone, chainRows, List.filter_filter]
  simp only [Bool.and_self]

theorem migrated (h : AlikeFor chainId a b) : a.migrated = b.migrated := by
  rw [Store.migrated, Store.migrated, h.table]

theorem filter (h : AlikeFor chainId a b) (hown : ∀ row, selected row = true → row.chainId = chainId) :
    a.rows.filter selected = b.rows.filter selected := by
  rw [← filter_chainRows hown, ← filter_chainRows hown, h.rows]

end AlikeFor

/-! ## Operations that keep to the rows of a chain -/

/-- The operation touches no row of another chain, gives out no id, and does the same wherever the chain finds the
same. -/
structure Confined (chainId : String) (operation : Store → ρ × Store) : Prop where
  others : ∀ store, (operation store).2.otherRows chainId = store.otherRows chainId
  table : ∀ store, (operation store).2.table = store.table
  lastId : ∀ store, (operation store).2.lastId = store.lastId
  alike : ∀ a b, AlikeFor chainId a b →
    (operation a).1 = (operation b).1 ∧ AlikeFor chainId (operation a).2 (operation b).2

theorem Confined.read {look : Store → ρ} (h : ∀ a b, AlikeFor chainId a b → look a = look b) :
    Confined chainId fun store => (look store, store) :=
  ⟨fun _ => rfl, fun _ => rfl, fun _ => rfl, fun a b hab => ⟨h a b hab, hab⟩⟩

theorem Confined.map {operation : Store → ρ × Store} (h : Confined chainId operation) (f : ρ → τ) :
    Confined chainId fun store => (f (operation store).1, (operation store).2) where
  others := h.others
  table := h.table
  lastId := h.lastId
  alike a b hab := ⟨congrArg f (h.alike a b hab).1, (h.alike a b hab).2⟩

theorem otherRows_moved (hown : ∀ row, selected row = true → row.chainId = chainId) :
    (store.moved selected state txHash).otherRows chainId = store.otherRows chainId := by
  rw [otherRows, filter_moved fun row => by simp [Row.ownedBy]]
  apply map_of_none
  intro row hrow hsel
  have hother := (List.mem_filter.1 hrow).2
  rw [Row.ownedBy, decide_eq_true (hown row hsel)] at hother
  cases hother

theorem chainRows_moved : (store.moved selected state txHash).chainRows chainId =
    (store.chainRows chainId).map fun row => if selected row then row.moveTo state txHash else row :=
  filter_moved fun row => by simp [Row.ownedBy]

theorem AlikeFor.moved (h : AlikeFor chainId a b) :
    AlikeFor chainId (a.moved selected state txHash) (b.moved selected state txHash) := by
  refine ⟨h.table, ?_⟩
  rw [chainRows_moved, chainRows_moved, h.rows]

theorem confined_moveWhere (hown : ∀ row, selected row = true → row.chainId = chainId) (state : MsgState)
    (txHash : Option String) : Confined chainId (moveWhere selected state txHash) where
  others store := by
    unfold moveWhere
    dsimp only
    split_ifs
    · rfl
    · rfl
    · exact otherRows_moved hown
    · rfl
  table store := by
    unfold moveWhere
    dsimp only
    split_ifs <;> rfl
  lastId store := by
    unfold moveWhere
    dsimp only
    split_ifs <;> rfl
  alike a b hab := by
    unfold moveWhere
    rw [hab.migrated, hab.filter hown]
    dsimp only
    split_ifs
    · exact ⟨rfl, hab⟩
    · exact ⟨rfl, hab⟩
    · exact ⟨rfl, hab.moved⟩
    · exact ⟨rfl, hab⟩

/-- What an update of so many ids makes of the number of rows that it has moved. -/
def judged (expected : Nat) : Except Error Nat → Except Error Unit
  | .error e => .error e
  | .ok moved => if moved = expected then .ok () else .error (.rowCountMismatch expected moved)

theorem confined_update (chainId : String) (ids : List MsgId) (state : MsgState) (txHash : Option String) :
    Confined chainId (update chainId ids state txHash) := by
  unfold update
  split_ifs
  · exact .read fun _ _ _ => rfl
  · exact .read fun _ _ _ => rfl
  · have hmove : Confined chainId (moveWhere (fun row => decide (row.chainId = chainId ∧ row.id ∈ ids)) state txHash) :=
      confined_moveWhere (fun _ hsel => (of_decide_eq_true hsel).1) state txHash
    convert hmove.map (judged ids.length) using 1
    funext store
    rcases moveWhere (fun row => decide (row.chainId = chainId ∧ row.id ∈ ids)) state txHash store with
      ⟨e | moved, later⟩
    · rfl
    · dsimp only [judged]
      split_ifs <;> rfl

theorem confined_updateContract (chainId contractId : String) (source target : MsgState) :
    Confined chainId (updateContract chainId contractId source target) := by
  unfold updateContract
  split_ifs
  · exact .read fun _ _ _ => rfl
  · exact confined_moveWhere (fun _ hsel => (of_decide_eq_true hsel).1) target none
  · exact .read fun _ _ _ => rfl

theorem confined_load (chainId : String) (state : MsgState) (limit : Int) :
    Confined chainId fun store => (store.load chainId state limit, store) := by
  apply Confined.read
  intro a b hab
  unfold load
  rw [hab.migrated, hab.filter fun _ hsel => (of_decide_eq_true hsel).1]

theorem confined_find (chainId : String) (ids : List MsgId) :
    Confined chainId fun store => (store.find chainId ids, store) := by
  apply Confined.read
  intro a b hab
  unfold find
  rw [hab.migrated, hab.filter fun _ hsel => (of_decide_eq_true hsel).1]

theorem confined_stats (chainId : String) : Confined chainId fun store => (store.stats chainId, store) := by
  apply Confined.read
  intro a b hab
  have hcount (state : MsgState) : (a.rows.countP fun row => row.chainId = chainId ∧ row.state = state) =
      b.rows.countP fun row => row.chainId = chainId ∧ row.state = state := by
    rw [List.countP_eq_length_filter, List.countP_eq_length_filter,
      hab.filter fun _ hsel => (of_decide_eq_true hsel).1]
  unfold stats
  simp only [hab.migrated, hcount]

/-! ## Statements -/

/-- Only an insert takes an id. -/
inductive Inserts : Statement → Prop
  | intro (contractId typeUrl : String) (raw : Bytes) (now : Int) : Inserts (.insert contractId typeUrl raw now)

/-- The rows in an answer. -/
def shown : (statement : Statement) → Except Error statement.Result → List Row
  | .load .., .ok rows => rows
  | .find .., .ok rows => rows
  | _, _ => []

/-- The id in the answer to an insert. -/
def given : (statement : Statement) → Except Error statement.Result → Option MsgId
  | .insert .., .ok id => some id
  | _, _ => none

theorem confined_execute {statement : Statement} (h : ¬Inserts statement) :
    Confined chainId (execute chainId statement) := by
  cases statement with
  | insert contractId typeUrl raw now => exact absurd (.intro contractId typeUrl raw now) h
  | load state limit => exact confined_load chainId state limit
  | find ids => exact confined_find chainId ids
  | update ids state txHash => exact confined_update chainId ids state txHash

theorem otherRows_execute (chainId : String) (statement : Statement) (store : Store) :
    (store.execute chainId statement).2.otherRows chainId = store.otherRows chainId := by
  by_cases hinserts : Inserts statement
  · obtain ⟨contractId, typeUrl, raw, now⟩ := hinserts
    dsimp only [execute, insert]
    split_ifs
    · rw [otherRows, List.filter_append]
      simp [otherRows, Row.ownedBy]
    · rfl
  · exact (confined_execute hinserts).others store

theorem table_execute (chainId : String) (statement : Statement) (store : Store) :
    (store.execute chainId statement).2.table = store.table := by
  by_cases hinserts : Inserts statement
  · obtain ⟨contractId, typeUrl, raw, now⟩ := hinserts
    dsimp only [execute, insert]
    split_ifs <;> rfl
  · exact (confined_execute hinserts).table store

/-- Two stores that are alike stay so, if they agree on the next id wherever one is needed. -/
theorem AlikeFor.execute (h : AlikeFor chainId a b) (statement : Statement)
    (hid : Inserts statement → a.lastId = b.lastId) :
    (a.execute chainId statement).1 = (b.execute chainId statement).1 ∧
      AlikeFor chainId (a.execute chainId statement).2 (b.execute chainId statement).2 := by
  by_cases hinserts : Inserts statement
  · have hlast := hid hinserts
    obtain ⟨contractId, typeUrl, raw, now⟩ := hinserts
    dsimp only [Store.execute, insert]
    rw [h.migrated, hlast]
    split_ifs
    · refine ⟨rfl, h.table, ?_⟩
      dsimp only [chainRows]
      rw [List.filter_append, List.filter_append]
      exact congrArg (· ++ _) h.rows
    · exact ⟨rfl, h⟩
  · exact (confined_execute hinserts).alike a b h

theorem lastId_execute (h : AlikeFor chainId a b) (hlast : a.lastId = b.lastId) (statement : Statement) :
    (a.execute chainId statement).2.lastId = (b.execute chainId statement).2.lastId := by
  by_cases hinserts : Inserts statement
  · obtain ⟨contractId, typeUrl, raw, now⟩ := hinserts
    dsimp only [execute, insert]
    rw [h.migrated, hlast]
    split_ifs
    · rfl
    · exact hlast
  · rw [(confined_execute hinserts).lastId, (confined_execute hinserts).lastId]
    exact hlast

/-- An answer shows rows of the chain only. -/
theorem mem_chainRows_of_shown {statement : Statement} {row : Row}
    (h : row ∈ shown statement (store.execute chainId statement).1) : row ∈ store.chainRows chainId := by
  cases statement with
  | insert | update => cases h
  | load state limit =>
    dsimp only [execute, load] at h
    split_ifs at h
    · cases h
    · obtain ⟨hrow, hsel⟩ := List.mem_filter.1 (List.mem_of_mem_take h)
      exact mem_chainRows.2 ⟨hrow, (of_decide_eq_true hsel).1⟩
    · cases h
  | find ids =>
    dsimp only [execute, find] at h
    split_ifs at h
    · cases h
    · obtain ⟨hrow, hsel⟩ := List.mem_filter.1 h
      exact mem_chainRows.2 ⟨hrow, (of_decide_eq_true hsel).1⟩
    · cases h

/-- An id that is given out is greater than that of any row, of whatever chain. -/
theorem lt_of_given (hs : store.Lawful) {statement : Statement} {id : MsgId}
    (h : given statement (store.execute chainId statement).1 = some id) : ∀ row ∈ store.rows, row.id < id := by
  cases statement with
  | load | find | update => cases h
  | insert contractId typeUrl raw now =>
    dsimp only [execute, insert] at h
    rw [if_pos hs.migrated] at h
    cases h
    intro row hrow
    exact Int.lt_add_one_of_le (hs.bounded row hrow)

end Store

end ReportRelay
