import ReportRelay.Proofs.Dialogue.Transcript
import ReportRelay.Queue.Store

/-!
# Transactions are all or nothing

The statements of a transaction see what the earlier ones among them have done, as they would without it. What they
have done stays if the body succeeds. Otherwise nothing of it is left, not even the ids that were given out.
-/

namespace ReportRelay.Store

variable {α : Type}

/-- What the statements of a body are, in the stores that they meet and with their answers. -/
def visits (chainId : String) (body : Dialogue statements α) (store : Store) : List (Store × Event statements) :=
  body.trace (fun _ store => store) (execute chainId) store

/-- The statements of a body with the answers that it hears. -/
def heard (chainId : String) (body : Dialogue statements α) (store : Store) : List (Event statements) :=
  (store.visits chainId body).map Prod.snd

/-- Executes one statement after the other, each on its own: their answers, and the store that they leave. -/
def executeEach (chainId : String) : List statements.Question → Store → List (Event statements) × Store
  | [], store => ([], store)
  | statement :: rest, store =>
    let (answer, later) := store.execute chainId statement
    let (answers, final) := executeEach chainId rest later
    (⟨statement, answer⟩ :: answers, final)

theorem heard_ask (chainId : String) (statement : statements.Question)
    (rest : statements.Answer statement → Dialogue statements α) (store : Store) :
    store.heard chainId (.ask statement rest) = ⟨statement, (store.execute chainId statement).1⟩ ::
      (store.execute chainId statement).2.heard chainId (rest (store.execute chainId statement).1) := rfl

theorem executeEach_cons (chainId : String) (statement : statements.Question) (rest : List statements.Question) (store : Store) :
    store.executeEach chainId (statement :: rest) =
      (⟨statement, (store.execute chainId statement).1⟩ ::
          ((store.execute chainId statement).2.executeEach chainId rest).1,
        ((store.execute chainId statement).2.executeEach chainId rest).2) := rfl

/-- What every statement preserves holds in all stores within a body, and at its end. -/
theorem forall_visits (P : Store → Prop) {chainId : String} {store : Store}
    (hexecute : ∀ statement s, P s → P (s.execute chainId statement).2) (body : Dialogue statements α)
    (hs : P store) : (∀ visit ∈ store.visits chainId body, P visit.1) ∧ P (store.run chainId body).2 :=
  Dialogue.forall_trace (fun _ _ h => h) hexecute body hs

theorem takes_heard (chainId : String) (body : Dialogue statements α) (store : Store) :
    body.Takes (store.heard chainId body) (store.run chainId body).1 :=
  body.takes_transcript store

/-- A body that runs does what its statements do one by one. -/
theorem executeEach_heard (chainId : String) (body : Dialogue statements α) (store : Store) :
    store.executeEach chainId ((store.heard chainId body).map Event.question) =
      (store.heard chainId body, (store.run chainId body).2) := by
  induction body generalizing store with
  | done | crash => rfl
  | wait idle nanos rest ih => exact ih () store
  | ask statement rest ih =>
    rw [heard_ask, List.map_cons, executeEach_cons]
    exact congrArg (Prod.map (List.cons _) id) (ih (store.execute chainId statement).1 (store.execute chainId statement).2)

/-- What a transaction comes to, where its body has heard these answers. -/
structure AllOrNothing (chainId : String) (body : Dialogue statements (Except Error α)) (store : Store)
    (events : List (Event statements)) (outcome : Except Crash (Except Error α)) (later : Store) : Prop where
  /-- The value, the error or the crash is the body's own. -/
  course : body.Takes events outcome
  answers : (store.executeEach chainId (events.map Event.question)).1 = events
  committed : ∀ a, outcome = .ok (.ok a) → later = (store.executeEach chainId (events.map Event.question)).2
  undone : (∀ a, outcome ≠ .ok (.ok a)) → later = store

/-- A transaction whose body succeeds leaves the store that the same statements leave without it, and any other one
leaves the store as it was. Each statement is answered as it is without the transaction. -/
theorem transaction_allOrNothing (store : Store) (chainId : String) (body : Dialogue statements (Except Error α)) :
    AllOrNothing chainId body store (store.heard chainId body) (store.transaction chainId body).1
      (store.transaction chainId body).2 := by
  have hcourse := store.takes_heard chainId body
  have heach := store.executeEach_heard chainId body
  unfold transaction
  rcases hrun : store.run chainId body with ⟨outcome, changed⟩
  rw [hrun] at hcourse heach
  have hanswers := congrArg Prod.fst heach
  rcases outcome with crash | e | a
  · exact ⟨hcourse, hanswers, nofun, fun _ => rfl⟩
  · exact ⟨hcourse, hanswers, nofun, fun _ => rfl⟩
  · refine ⟨hcourse, hanswers, fun _ _ => (congrArg Prod.snd heach).symm, fun hfailed => ?_⟩
    exact absurd rfl (hfailed a)

end ReportRelay.Store
