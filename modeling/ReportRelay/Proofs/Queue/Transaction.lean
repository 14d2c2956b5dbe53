import ReportRelay.Proofs.Queue.Evolution

/-!
# Transactions

What is seen of the store within a transaction, and what the transaction leaves behind. Its body may go on after
a statement that was rejected; a body that does not succeed leaves the store as it was.
-/

namespace ReportRelay.Store

variable {store : Store} {α : Type}

/-- The states of the store within a dialogue, one after each statement. -/
def views (chainId : String) : Dialogue statements α → Store → List Store
  | .done _, _ => []
  | .crash _, _ => []
  | .wait _ _ rest, store => views chainId (rest ()) store
  | .ask statement rest, store =>
    (store.execute chainId statement).2 ::
      views chainId (rest (store.execute chainId statement).1) (store.execute chainId statement).2

/-- A dialogue leads over its views to its end, and the store evolves from each of them to the next. -/
theorem pairwise_views (h : store.Lawful) (chainId : String) (body : Dialogue statements α) :
    (store :: (views chainId body store ++ [(store.run chainId body).2])).Pairwise Evolves := by
  induction body generalizing store with
  | done | crash => exact List.pairwise_pair.2 (.refl h)
  | wait idle nanos rest ih => exact ih () h
  | ask statement rest ih =>
    have hstep := evolves_execute h chainId statement
    have hrest := ih (store.execute chainId statement).1 hstep.lawful
    refine List.pairwise_cons.2 ⟨fun later hlater => ?_, hrest⟩
    rcases List.mem_cons.1 hlater with rfl | hlater
    · exact hstep
    · exact hstep.trans ((List.pairwise_cons.1 hrest).1 later hlater)

/-- A transaction keeps what its body has made of the store if the body succeeds, and nothing otherwise. -/
theorem transaction_cases (store : Store) (chainId : String) (body : Dialogue statements (Except Error α)) :
    (∃ a, store.transaction chainId body = (.ok (.ok a), (store.run chainId body).2)) ∨
    ∃ outcome, store.transaction chainId body = (outcome, store) ∧ ∀ a, outcome ≠ .ok (.ok a) := by
  unfold transaction
  rcases store.run chainId body with ⟨c | e | a, changed⟩
  · exact .inr ⟨_, rfl, nofun⟩
  · exact .inr ⟨_, rfl, nofun⟩
  · exact .inl ⟨a, rfl⟩

/-- An update of all or nothing is a transaction of one statement. -/
theorem transaction_update (store : Store) (chainId : String) (ids : List MsgId) (state : MsgState)
    (txHash : Option String) :
    store.transaction chainId (Dialogue.question (S := statements) (.update ids state txHash)) =
      (.ok (store.updateAll chainId ids state txHash).1, (store.updateAll chainId ids state txHash).2) := by
  unfold transaction updateAll run Dialogue.question
  dsimp only [Dialogue.run, execute]
  rcases store.update chainId ids state txHash with ⟨e | ⟨⟩, changed⟩ <;> rfl

end ReportRelay.Store
