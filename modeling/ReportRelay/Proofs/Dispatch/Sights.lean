import ReportRelay.Proofs.Dispatch.Effect
import ReportRelay.Proofs.Queue.Transaction

/-!
# The store over a whole run

A run does anything to a store: statements, moves of whole contracts, transactions and commands of dispatchers, in
any order and for any chains. All that is ever seen of the store is lawful, and of what lasts every row is only
seen to evolve.
-/

namespace ReportRelay.Dispatch

variable {chainId : String} {s m s' : Store} {a b : List Sight} {views : List Store}

/-- What is seen of a store: a state that lasts, or the states within a transaction that is undone. -/
inductive Sight
  | lasting (store : Store)
  | undone (views : List Store)

def Sight.stores : Sight → List Store
  | lasting store => [store]
  | undone views => views

/-- A later sight of the store. If the earlier one lasts, the store has only evolved since, and no row has left a
final state. -/
def Follows (earlier later : Sight) : Prop :=
  ∀ s, earlier = .lasting s → ∀ s' ∈ later.stores, s.Evolves s' ∧
    ∀ row ∈ s.rows, row.state.isTerminal = true → ∃ row' ∈ s'.rows, row'.id = row.id ∧ row'.state = row.state

inductive Operation : Type 1
  | execute (chainId : String) (statement : Store.Statement)
  | updateContract (chainId contractId : String) (source target : MsgState)
  | transaction {α : Type} (chainId : String) (body : Dialogue Store.statements (Except Error α))
  | dispatch (chainId : String) (command : Command)

def transactionSights {α : Type} (chainId : String) (body : Dialogue Store.statements (Except Error α))
    (store : Store) : List Sight :=
  match store.transaction chainId body with
  | (.ok (.ok _), later) => (store.views chainId body ++ [later]).map .lasting
  | (_, later) => [.undone (store.views chainId body), .lasting later]

def historySights (chainId : String) : Store → List Moment → List Sight
  | _, [] => []
  | store, ⟨⟨.storeAll ids state txHash, _⟩, later⟩ :: moments =>
    transactionSights chainId (Dialogue.question (S := Store.statements) (.update ids state txHash)) store ++
      historySights chainId later moments
  | _, ⟨_, later⟩ :: moments => .lasting later :: historySights chainId later moments

def Operation.perform {E : Type} (others : Collaborators E) (env : E) (store : Store) :
    Operation → List Sight × E × Store
  | .execute chainId statement =>
    let later := (store.execute chainId statement).2
    ([.lasting later], env, later)
  | .updateContract chainId contractId source target =>
    let later := (store.updateContract chainId contractId source target).2
    ([.lasting later], env, later)
  | .transaction chainId body =>
    (transactionSights chainId body store, env, (store.transaction chainId body).2)
  | .dispatch chainId command =>
    let world := World.perform chainId others ⟨env, store, []⟩ command
    (historySights chainId store world.history, world.env, world.store)

/-- All that is seen of a store while one operation after the other is performed on it. -/
def sights {E : Type} (others : Collaborators E) : E → Store → List Operation → List Sight
  | _, store, [] => [.lasting store]
  | env, store, operation :: operations =>
    let (seen, env, later) := operation.perform others env store
    .lasting store :: (seen ++ sights others env later operations)

/-! ## Trails -/

/-- Sights on the way of a store from one state to another. -/
inductive Trail : Store → List Sight → Store → Prop
  | nothing {s : Store} : Trail s [] s
  | lasting {s m s' : Store} {sights : List Sight} (evolves : s.Evolves m) (rest : Trail m sights s') :
    Trail s (.lasting m :: sights) s'
  | undone {s s' : Store} {views : List Store} {sights : List Sight}
    (evolve : (s :: views).Pairwise Store.Evolves) (rest : Trail s sights s') :
    Trail s (.undone views :: sights) s'

namespace Trail

theorem append (ha : Trail s a m) (hb : Trail m b s') : Trail s (a ++ b) s' := by
  induction ha with
  | nothing => exact hb
  | lasting evolves _ ih => exact .lasting evolves (ih hb)
  | undone evolve _ ih => exact .undone evolve (ih hb)

theorem single (h : s.Evolves m) : Trail s [.lasting m] m :=
  .lasting h .nothing

/-- The views of something that lasts are a trail to the last of them. -/
theorem of_views (h : (s :: (views ++ [m])).Pairwise Store.Evolves) :
    Trail s ((views ++ [m]).map .lasting) m := by
  induction views generalizing s with
  | nil => exact single ((List.pairwise_cons.1 h).1 m (List.mem_singleton_self m))
  | cons view views ih =>
    obtain ⟨hfirst, hrest⟩ := List.pairwise_cons.1 h
    exact .lasting (hfirst view List.mem_cons_self) (ih hrest)

theorem evolves (h : Trail s a s') (hs : s.Lawful) : s.Evolves s' := by
  induction h with
  | nothing => exact .refl hs
  | lasting evolves _ ih => exact evolves.trans (ih evolves.lawful)
  | undone _ _ ih => exact ih hs

theorem evolves_of_mem (h : Trail s a s') {sight : Sight} (hsight : sight ∈ a) :
    ∀ view ∈ sight.stores, s.Evolves view := by
  induction h with
  | nothing => cases hsight
  | lasting evolves _ ih =>
    intro view hview
    rcases List.mem_cons.1 hsight with rfl | hsight
    · obtain rfl := List.mem_singleton.1 hview
      exact evolves
    · exact evolves.trans (ih hsight view hview)
  | undone evolve _ ih =>
    rcases List.mem_cons.1 hsight with rfl | hsight
    · exact (List.pairwise_cons.1 evolve).1
    · exact ih hsight

theorem pairwise_stores (h : Trail s a s') {sight : Sight} (hsight : sight ∈ a) :
    sight.stores.Pairwise Store.Evolves := by
  induction h with
  | nothing => cases hsight
  | lasting _ _ ih =>
    rcases List.mem_cons.1 hsight with rfl | hsight
    · exact List.pairwise_singleton _ _
    · exact ih hsight
  | undone evolve _ ih =>
    rcases List.mem_cons.1 hsight with rfl | hsight
    · exact (List.pairwise_cons.1 evolve).2
    · exact ih hsight

theorem pairwise_follows (h : Trail s a s') : a.Pairwise Follows := by
  induction h with
  | nothing => exact .nil
  | @lasting s m s' sights evolves rest ih =>
    refine List.pairwise_cons.2 ⟨fun later hlater store hstore s' hs' => ?_, ih⟩
    cases hstore
    have hevolves := rest.evolves_of_mem hlater s' hs'
    refine ⟨hevolves, fun row hrow hterminal => ?_⟩
    obtain ⟨row', hrow', hkept⟩ := hevolves.kept row hrow
    exact ⟨row', hrow', hkept.id, hkept.state.eq_of_isTerminal hterminal⟩
  | undone _ _ ih =>
    refine List.pairwise_cons.2 ⟨fun later _ store hstore => ?_, ih⟩
    cases hstore

end Trail

/-! ## What is done leaves a trail -/

theorem trail_transaction {α : Type} (h : s.Lawful) (chainId : String)
    (body : Dialogue Store.statements (Except Error α)) :
    Trail s (transactionSights chainId body s) (s.transaction chainId body).2 := by
  have hviews := Store.pairwise_views h chainId body
  unfold transactionSights
  rcases s.transaction_cases chainId body with ⟨a, heq⟩ | ⟨outcome, heq, hundone⟩
  · rw [heq]
    exact .of_views hviews
  · rw [heq]
    have hundoneTrail : Trail s [.undone (s.views chainId body), .lasting s] s := by
      refine .undone (hviews.sublist ?_) (.single (.refl h))
      exact (List.sublist_append_left _ _).cons_cons s
    rcases outcome with c | e | a
    · exact hundoneTrail
    · exact hundoneTrail
    · exact absurd rfl (hundone a)

theorem trail_history {moments : List Moment} (h : s.Lawful) (hrecorded : Recorded chainId s moments s') :
    Trail s (historySights chainId s moments) s' := by
  induction moments generalizing s with
  | nil =>
    cases hrecorded
    exact .nothing
  | cons moment moments ih =>
    obtain ⟨hmeets, hrecorded⟩ := hrecorded
    have hevolves := evolves_of_meets h hmeets
    have hrest := ih hevolves.lawful hrecorded
    obtain ⟨⟨question, answer⟩, later⟩ := moment
    cases question with
    | storeAll ids state txHash =>
      have htrail := trail_transaction h chainId
        (Dialogue.question (S := Store.statements) (.update ids state txHash))
      rw [Store.transaction_update, show s.updateAll chainId ids state txHash = (answer, later) from hmeets]
        at htrail
      exact htrail.append hrest
    | client | signer | prices | now | turn | store | log => exact .lasting hevolves hrest

theorem trail_perform {E : Type} (others : Collaborators E) (env : E) (h : s.Lawful) (operation : Operation) :
    Trail s (operation.perform others env s).1 (operation.perform others env s).2.2 := by
  cases operation with
  | execute chainId statement => exact .single (Store.evolves_execute h chainId statement)
  | updateContract chainId contractId source target =>
    exact .single (Store.evolves_updateContract h chainId contractId source target)
  | transaction chainId body => exact trail_transaction h chainId body
  | dispatch chainId command =>
    obtain ⟨moments, hhistory, _, hrecorded, _⟩ :=
      exists_takes_of_run chainId others command.dialogue ⟨env, s, []⟩
    rw [List.nil_append] at hhistory
    have htrail := trail_history h hrecorded
    rwa [← hhistory] at htrail

theorem exists_trail_sights {E : Type} (others : Collaborators E) (env : E) (h : s.Lawful)
    (operations : List Operation) : ∃ s', Trail s (sights others env s operations) s' := by
  induction operations generalizing env s with
  | nil => exact ⟨s, .single (.refl h)⟩
  | cons operation operations ih =>
    have hperform := trail_perform others env h operation
    obtain ⟨s', hrest⟩ := ih (operation.perform others env s).2.1 (hperform.evolves h).lawful
    exact ⟨s', .lasting (.refl h) (hperform.append hrest)⟩

/-- Whatever is done to a store, a row has a transaction hash exactly while it is broadcasted or confirmed, and what
lasts is only seen to evolve. Within a transaction that is undone, so are its views. -/
theorem evolves_throughout {E : Type} (others : Collaborators E) (env : E) {start : Store} (h : start.Lawful)
    (operations : List Operation) :
    (sights others env start operations).Pairwise Follows ∧
      ∀ sight ∈ sights others env start operations, sight.stores.Pairwise Store.Evolves ∧
        ∀ s ∈ sight.stores, s.Lawful ∧
          ∀ row ∈ s.rows, row.txHash.isSome ↔ row.state = .broadcasted ∨ row.state = .confirmed := by
  obtain ⟨s', htrail⟩ := exists_trail_sights others env h operations
  refine ⟨htrail.pairwise_follows, fun sight hsight => ⟨htrail.pairwise_stores hsight, fun s hs => ?_⟩⟩
  have hlawful := (htrail.evolves_of_mem hsight s hs).lawful
  exact ⟨hlawful, fun row hrow => Row.checked_iff.1 (hlawful.checked row hrow)⟩

/-- A message is started in a transaction that fails, and sent after all in the next cycle. -/
def startedInVain : List Operation :=
  [.dispatch "chain" (.enqueue "contract" payment),
    .transaction "chain" ((Dialogue.question (S := Store.statements) (.update [1] .started none)).bind
      fun _ => .done (.error .invalidLimit : Except Error Unit)),
    .dispatch "chain" (.pollCycle (limitedSettings 1))]

theorem evolves_throughout_startedInVain :
    (∃ sight ∈ sights obliging 0 emptyStore startedInVain, ∃ s ∈ sight.stores, ∃ row ∈ s.rows,
      row.state = .confirmed) ∧
    (sights obliging 0 emptyStore startedInVain).Pairwise Follows ∧
      ∀ sight ∈ sights obliging 0 emptyStore startedInVain, sight.stores.Pairwise Store.Evolves ∧
        ∀ s ∈ sight.stores, s.Lawful ∧
          ∀ row ∈ s.rows, row.txHash.isSome ↔ row.state = .broadcasted ∨ row.state = .confirmed :=
  ⟨by decide +kernel, evolves_throughout obliging 0 lawful_emptyStore startedInVain⟩

end ReportRelay.Dispatch
