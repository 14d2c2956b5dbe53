import ReportRelay.Proofs.Queue.Evolution

/-!
# Loads

A load answers with the oldest rows in a state. A row in that state is left out only when the load is full of
older ones.
-/

namespace ReportRelay.Store

variable {store : Store} {chainId : String} {state : MsgState} {limit : Int} {rows : List Row} {row : Row}

/-- The first so many rows in a state. -/
def oldest (chainId : String) (state : MsgState) (limit : Int) (store : Store) : List Row :=
  (store.rows.filter fun row => row.chainId = chainId ∧ row.state = state).take limit.toNat

theorem load_ok (h : store.load chainId state limit = .ok rows) :
    1 ≤ limit ∧ rows = store.oldest chainId state limit := by
  unfold load at h
  split_ifs at h with hlimit
  cases h
  exact ⟨Int.not_lt.1 hlimit, rfl⟩

theorem oldest_eq_nil (hlimit : limit < 1) : store.oldest chainId state limit = [] := by
  rw [oldest, Int.toNat_of_nonpos (Int.lt_add_one_iff.1 hlimit), List.take_zero]

/-- A lawful store refuses a load only for its limit. -/
theorem lt_one_of_load {e : Error} (hs : store.Lawful) (h : store.load chainId state limit = .error e) : limit < 1 := by
  unfold load at h
  rw [if_pos hs.migrated] at h
  split_ifs at h with hlimit
  exact hlimit

theorem load_eq_of_mem (hs : store.Lawful) (hrow : row ∈ store.oldest chainId state limit) :
    store.load chainId state limit = .ok (store.oldest chainId state limit) := by
  have hlimit : ¬limit < 1 := by
    intro hlt
    rw [oldest_eq_nil hlt] at hrow
    cases hrow
  rw [load, if_neg hlimit, if_pos hs.migrated]
  rfl

theorem mem_of_oldest (hrow : row ∈ store.oldest chainId state limit) :
    row ∈ store.rows ∧ row.chainId = chainId ∧ row.state = state := by
  obtain ⟨hmem, hcond⟩ := List.mem_filter.1 (List.mem_of_mem_take hrow)
  exact ⟨hmem, of_decide_eq_true hcond⟩

theorem mem_of_load (h : store.load chainId state limit = .ok rows) (hrow : row ∈ rows) :
    row ∈ store.rows ∧ row.chainId = chainId ∧ row.state = state := by
  obtain ⟨_, rfl⟩ := load_ok h
  exact mem_of_oldest hrow

theorem ascending_oldest (hs : store.Lawful) : (store.oldest chainId state limit).Pairwise (·.id < ·.id) :=
  hs.ascending.sublist ((List.take_sublist _ _).trans List.filter_sublist)

theorem ascending_of_load (hs : store.Lawful) (h : store.load chainId state limit = .ok rows) :
    rows.Pairwise (·.id < ·.id) := by
  obtain ⟨_, rfl⟩ := load_ok h
  exact ascending_oldest hs

theorem nodup_ids_of_load (hs : store.Lawful) (h : store.load chainId state limit = .ok rows) :
    (rows.map Row.id).Nodup :=
  List.pairwise_map.2 ((ascending_of_load hs h).imp fun hlt => Int.ne_of_lt hlt)

/-- A row that is left out is younger than all rows of a full load. -/
theorem full_of_not_mem (hs : store.Lawful) (h : store.load chainId state limit = .ok rows)
    (hrow : row ∈ store.rows) (hchain : row.chainId = chainId) (hstate : row.state = state)
    (hnot : row ∉ rows) : (rows.length : Int) = limit ∧ ∀ other ∈ rows, other.id < row.id := by
  obtain ⟨hlimit, rfl⟩ := load_ok h
  unfold oldest at hnot ⊢
  have hmem : row ∈ store.rows.filter fun row => row.chainId = chainId ∧ row.state = state :=
    List.mem_filter.2 ⟨hrow, decide_eq_true ⟨hchain, hstate⟩⟩
  have hascending := hs.ascending.sublist
    (List.filter_sublist (p := fun row : Row => row.chainId = chainId ∧ row.state = state))
  generalize store.rows.filter (fun row => row.chainId = chainId ∧ row.state = state) = all at *
  have hdrop : row ∈ all.drop limit.toNat := by
    rw [← List.take_append_drop limit.toNat all] at hmem
    exact (List.mem_append.1 hmem).resolve_left hnot
  rw [← List.take_append_drop limit.toNat all] at hascending
  refine ⟨?_, fun other hother => (List.pairwise_append.1 hascending).2.2 other hother row hdrop⟩
  have hlonger : limit.toNat < all.length := by
    by_contra hshort
    rw [List.drop_eq_nil_of_le (Nat.not_lt.1 hshort)] at hdrop
    cases hdrop
  rw [List.length_take_of_le (Nat.le_of_lt hlonger)]
  omega

/-- With a row, all older ones in the same state are loaded. -/
theorem mem_load_of_older (hs : store.Lawful) (h : store.load chainId state limit = .ok rows)
    {younger : Row} (hyounger : younger ∈ rows) (hrow : row ∈ store.rows) (hchain : row.chainId = chainId)
    (hstate : row.state = state) (hid : row.id < younger.id) : row ∈ rows := by
  by_contra hnot
  have hlt := (full_of_not_mem hs h hrow hchain hstate hnot).2 younger hyounger
  exact Int.lt_irrefl _ (Int.lt_trans hlt hid)

end ReportRelay.Store
