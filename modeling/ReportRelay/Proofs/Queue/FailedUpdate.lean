import ReportRelay.Proofs.Queue.Update

/-!
# Updates that fail

An update fails before it touches the store, at the guard on transitions, or at the count of the rows that it has
moved. The first two leave the store as it was. The count is taken afterwards: by then the rows that were found have
moved.
-/

namespace ReportRelay

namespace MsgState

@[simp] theorem canMoveTo_self (state : MsgState) : state.canMoveTo state = false := by
  cases state <;> rfl

end MsgState

namespace Store

variable {store later : Store} {chainId : String} {ids : List MsgId} {selected : Row → Bool}
  {state : MsgState} {txHash : Option String} {e : Error}

/-- Why an update fails, and what it leaves behind. -/
inductive FailsWith (chainId : String) (ids : List MsgId) (state : MsgState) (txHash : Option String)
    (store : Store) : Error → Store → Prop
  | noHash (target : state = .broadcasted) (missing : txHash = none) :
    FailsWith chainId ids state txHash store .missingTxHash store
  | stuck {row : Row} (mem : row ∈ store.rows) (named : named chainId ids row = true)
    (stuck : row.state.canMoveTo state = false) :
    FailsWith chainId ids state txHash store (.database .rejectedTransition) store
  | miscounted (free : ∀ row ∈ store.rows, named chainId ids row = true → row.state.canMoveTo state = true)
    (count : (store.rows.filter (named chainId ids)).length ≠ ids.length) :
    FailsWith chainId ids state txHash store
      (.rowCountMismatch ids.length (store.rows.filter (named chainId ids)).length)
      (store.moved (named chainId ids) state txHash)

/-- With a hash where one is needed, the guard is all that can refuse a bulk move of lawful rows. -/
theorem moveWhere_eq_of_lawful (h : store.Lawful) (hhash : state = .broadcasted → txHash ≠ none) :
    store.moveWhere selected state txHash =
      if (store.rows.filter selected).any fun row => !row.state.canMoveTo state then
        (.error (.database .rejectedTransition), store)
      else (.ok (store.rows.filter selected).length, store.moved selected state txHash) := by
  unfold moveWhere
  rw [if_pos h.migrated]
  simp only [Table.admits_eq_canMoveTo]
  split_ifs with hstuck hunchecked
  · rfl
  · exfalso
    simp only [List.any_eq_true, Bool.not_eq_true', decide_eq_false_iff_not] at hunchecked
    obtain ⟨row, hrow, hno⟩ := hunchecked
    apply hno
    apply (h.checked row (List.mem_of_mem_filter hrow)).moveTo _ hhash
    by_contra hmove
    apply hstuck
    simp only [List.any_eq_true, Bool.not_eq_true']
    exact ⟨row, hrow, Bool.eq_false_iff.2 hmove⟩
  · rfl

theorem failsWith_of_update (h : store.Lawful)
    (hu : store.update chainId ids state txHash = (.error e, later)) :
    FailsWith chainId ids state txHash store e later := by
  by_cases hhash : state = .broadcasted → txHash ≠ none
  · rcases eq_or_ne ids [] with rfl | hids
    · rw [update_nil hhash] at hu
      cases hu
    rw [update_eq hids hhash, moveWhere_eq_of_lawful h hhash] at hu
    by_cases hstuck : (store.rows.filter (named chainId ids)).any fun row => !row.state.canMoveTo state
    · rw [if_pos hstuck] at hu
      cases hu
      simp only [List.any_eq_true, List.mem_filter, Bool.not_eq_true'] at hstuck
      obtain ⟨row, ⟨hrow, hnamed⟩, hstuck⟩ := hstuck
      exact .stuck hrow hnamed hstuck
    · rw [if_neg hstuck] at hu
      dsimp only at hu
      split_ifs at hu with hcount
      · cases hu
      · cases hu
        refine .miscounted (fun row hrow hnamed => ?_) hcount
        by_contra hmove
        apply hstuck
        simp only [List.any_eq_true, List.mem_filter, Bool.not_eq_true']
        exact ⟨row, ⟨hrow, hnamed⟩, Bool.eq_false_iff.2 hmove⟩
  · have hmissing : state = .broadcasted ∧ txHash = none := by simpa using hhash
    rw [update, if_pos hmissing] at hu
    cases hu
    exact .noHash hmissing.1 hmissing.2

/-- A row that moves is not what it was. -/
theorem moved_ne_of_mem (h : store.Lawful) {row : Row} (hrow : row ∈ store.rows) (hsel : selected row = true)
    (hmove : row.state.canMoveTo state = true) : store.moved selected state txHash ≠ store := by
  intro heq
  have hmoved : row.moveTo state txHash ∈ store.rows := by
    rw [← heq]
    exact mem_moved.2 ⟨row, hrow, if_pos hsel⟩
  have hsame : row = row.moveTo state txHash := h.eq_of_id_eq hrow hmoved Row.moveTo_id.symm
  have hstate : row.state = state := (congrArg Row.state hsame).trans Row.moveTo_state
  rw [hstate, MsgState.canMoveTo_self] at hmove
  cases hmove

/-- A failed update has one of three causes, and it leaves the store as it was unless it is the count of the rows that
is wrong and there was a row to count. -/
theorem unchanged_iff_of_failed_update (h : store.Lawful)
    (hu : store.update chainId ids state txHash = (.error e, later)) :
    FailsWith chainId ids state txHash store e later ∧
      (later = store ↔ ∀ got, e = .rowCountMismatch ids.length got → got = 0) := by
  have hfails := failsWith_of_update h hu
  refine ⟨hfails, ?_⟩
  cases hfails with
  | noHash | stuck => exact iff_of_true rfl nofun
  | miscounted free count =>
    constructor
    · intro heq got hgot
      cases hgot
      rw [List.length_eq_zero_iff, List.filter_eq_nil_iff]
      intro row hrow hnamed
      exact moved_ne_of_mem h hrow hnamed (free row hrow hnamed) heq
    · intro hzero
      exact moved_of_none (List.filter_eq_nil_iff.1 (List.length_eq_zero_iff.1 (hzero _ rfl)))

/-- A store with one message, which nobody has started yet. -/
def oneMessage : Store :=
  (new.migrate.2.insert "chain" "contract" "type" [1] 0).2

theorem lawful_oneMessage : oneMessage.Lawful :=
  (evolves_insert lawful_new "chain" "contract" "type" [1] 0).lawful

theorem unchanged_iff_of_unknown_id :
    oneMessage.update "chain" [1, 101] .started none =
      (.error (.rowCountMismatch 2 1), oneMessage.moved (named "chain" [1, 101]) .started none) ∧
    (oneMessage.moved (named "chain" [1, 101]) .started none = oneMessage ↔
      ∀ got, Error.rowCountMismatch 2 1 = .rowCountMismatch [1, 101].length got → got = 0) := by
  have hfails : oneMessage.update "chain" [1, 101] .started none =
      (.error (.rowCountMismatch 2 1), oneMessage.moved (named "chain" [1, 101]) .started none) := by
    decide +kernel
  exact ⟨hfails, (unchanged_iff_of_failed_update lawful_oneMessage hfails).2⟩

/-- Of two ids one is unknown: the update fails, and the other message is started all the same. -/
theorem not_unchanged_of_unknown_id :
    ¬∀ (store later : Store) (chainId : String) (ids : List MsgId) (state : MsgState) (txHash : Option String)
      (e : Error), store.Lawful → store.update chainId ids state txHash = (.error e, later) →
        later.rows = store.rows := by
  intro hall
  have hfails : oneMessage.update "chain" [1, 101] .started none =
      (.error (.rowCountMismatch 2 1), oneMessage.moved (named "chain" [1, 101]) .started none) := by
    decide +kernel
  have hrows := hall _ _ _ _ _ _ _ lawful_oneMessage hfails
  revert hrows
  decide +kernel

end Store

end ReportRelay
