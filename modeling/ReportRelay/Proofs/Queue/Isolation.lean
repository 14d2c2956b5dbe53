import ReportRelay.Proofs.Queue.Atomicity
import ReportRelay.Proofs.Queue.Confinement
import ReportRelay.Proofs.Queue.Transaction

/-!
# Chains that share a store

A request is made for one chain. It leaves the rows of the others alone, and they have no part in what comes of it.
Only the counter is shared: the id of a new row depends on how many rows the others have made.
-/

namespace ReportRelay.Store

variable {store a b : Store} {chainId : String} {α : Type}

/-! ## Bodies of statements -/

theorem lawful_visits (hs : store.Lawful) (chainId : String) (body : Dialogue statements α) :
    (∀ visit ∈ store.visits chainId body, visit.1.Lawful) ∧ (store.run chainId body).2.Lawful := by
  refine forall_visits Lawful ?_ body hs
  intro statement s h
  exact (evolves_execute h chainId statement).lawful

/-- A body hears the same in stores that are alike, and it leaves stores that are alike. -/
theorem AlikeFor.run (h : AlikeFor chainId a b) {body : Dialogue statements α}
    (hid : (∃ event ∈ a.heard chainId body, Inserts event.question) → a.lastId = b.lastId) :
    a.heard chainId body = b.heard chainId body ∧
      (a.run chainId body).1 = (b.run chainId body).1 ∧
      AlikeFor chainId (a.run chainId body).2 (b.run chainId body).2 := by
  induction body generalizing a b with
  | done | crash => exact ⟨rfl, rfl, h⟩
  | wait idle nanos rest ih => exact ih () h hid
  | ask statement rest ih =>
    rw [heard_ask] at hid ⊢
    have hfirst : Inserts statement → a.lastId = b.lastId := fun hinserts => hid ⟨_, List.mem_cons_self, hinserts⟩
    obtain ⟨hanswer, hlater⟩ := h.execute statement hfirst
    obtain ⟨hheard, houtcome, hend⟩ := ih (a.execute chainId statement).1 hlater fun hrest => by
      obtain ⟨event, hevent, hinserts⟩ := hrest
      exact lastId_execute h (hid ⟨event, List.mem_cons_of_mem _ hevent, hinserts⟩) statement
    rw [heard_ask, ← hanswer, ← hheard]
    refine ⟨rfl, ?_⟩
    have hrun : (b.run chainId (.ask statement rest)) =
        (b.execute chainId statement).2.run chainId (rest (a.execute chainId statement).1) := by
      rw [hanswer]
      rfl
    rw [hrun]
    exact ⟨houtcome, hend⟩

theorem shown_visits {body : Dialogue statements α} :
    ∀ visit ∈ store.visits chainId body, ∀ row ∈ shown visit.2.question visit.2.answer,
      row ∈ visit.1.chainRows chainId := by
  intro visit hvisit row hrow
  rw [Dialogue.answer_eq_of_mem_trace hvisit] at hrow
  exact mem_chainRows_of_shown hrow

theorem given_visits (hs : store.Lawful) {body : Dialogue statements α} :
    ∀ visit ∈ store.visits chainId body, ∀ id, given visit.2.question visit.2.answer = some id →
      ∀ row ∈ visit.1.rows, row.id < id := by
  intro visit hvisit id hid
  rw [Dialogue.answer_eq_of_mem_trace hvisit] at hid
  exact lt_of_given ((lawful_visits hs chainId body).1 visit hvisit) hid

/-! ## Requests -/

/-- What may be asked of a store for one chain. -/
inductive Request : Type 1
  | statement (s : Statement)
  | updateContract (contractId : String) (source target : MsgState)
  | stats
  | transaction {α : Type} (body : Dialogue statements (Except Error α))

def Request.Result : Request → Type
  | statement s => Except Error s.Result
  | updateContract .. => Except Error Nat
  | stats => Except Error MsgStats
  | @transaction α _ => Except Crash (Except Error α)

def serve (chainId : String) : (request : Request) → Store → request.Result × Store
  | .statement s, store => store.execute chainId s
  | .updateContract contractId source target, store => store.updateContract chainId contractId source target
  | .stats, store => (store.stats chainId, store)
  | .transaction body, store => store.transaction chainId body

/-- The statements of a request, in the stores that they meet and with their answers. -/
def visited (chainId : String) : Request → Store → List (Store × Event statements)
  | .statement s, store => store.visits chainId (Dialogue.question (S := statements) s)
  | .transaction body, store => store.visits chainId body
  | .updateContract .., _ => []
  | .stats, _ => []

theorem visited_cases (chainId : String) (request : Request) :
    (∃ (α : Type) (body : Dialogue statements α), visited chainId request = visits chainId body) ∨
      visited chainId request = fun _ => [] := by
  cases request with
  | statement s => exact .inl ⟨_, Dialogue.question (S := statements) s, rfl⟩
  | transaction body => exact .inl ⟨_, body, rfl⟩
  | updateContract | stats => exact .inr rfl

/-- What every statement and every update of a contract preserve, every request preserves. -/
theorem serve_induction (P : Store → Prop)
    (hexecute : ∀ statement s, P s → P (s.execute chainId statement).2)
    (hcontract : ∀ contractId source target s, P s → P (s.updateContract chainId contractId source target).2)
    (request : Request) (hs : P store) : P (store.serve chainId request).2 := by
  cases request with
  | statement s => exact hexecute s store hs
  | updateContract contractId source target => exact hcontract contractId source target store hs
  | stats => exact hs
  | transaction body =>
    dsimp only [serve]
    rcases transaction_cases store chainId body with ⟨a, heq⟩ | ⟨outcome, heq, _⟩
    · rw [heq]
      exact (forall_visits P hexecute body hs).2
    · rwa [heq]

theorem lawful_serve (hs : store.Lawful) (chainId : String) (request : Request) :
    (store.serve chainId request).2.Lawful := by
  apply serve_induction Lawful _ _ request hs
  · intro statement s h
    exact (evolves_execute h chainId statement).lawful
  · intro contractId source target s h
    exact (evolves_updateContract h chainId contractId source target).lawful

theorem table_serve (chainId : String) (request : Request) (store : Store) :
    (store.serve chainId request).2.table = store.table := by
  apply serve_induction (fun s => s.table = store.table) _ _ request rfl
  · intro statement s h
    exact (table_execute chainId statement s).trans h
  · intro contractId source target s h
    exact ((confined_updateContract chainId contractId source target).table s).trans h

theorem otherRows_serve (chainId : String) (request : Request) (store : Store) :
    (store.serve chainId request).2.otherRows chainId = store.otherRows chainId := by
  apply serve_induction (fun s => s.otherRows chainId = store.otherRows chainId) _ _ request rfl
  · intro statement s h
    exact (otherRows_execute chainId statement s).trans h
  · intro contractId source target s h
    exact ((confined_updateContract chainId contractId source target).others s).trans h

/-- A request inserts, if one of its statements does. -/
def InsertsIn (chainId : String) (request : Request) (store : Store) : Prop :=
  ∃ visit ∈ visited chainId request store, Inserts visit.2.question

theorem AlikeFor.serve (h : AlikeFor chainId a b) {request : Request}
    (hid : a.InsertsIn chainId request → a.lastId = b.lastId) :
    (a.visited chainId request).map Prod.snd = (b.visited chainId request).map Prod.snd ∧
      (a.serve chainId request).1 = (b.serve chainId request).1 ∧
      AlikeFor chainId (a.serve chainId request).2 (b.serve chainId request).2 := by
  have hbody {α : Type} (body : Dialogue statements α) (hbody : a.visited chainId request = a.visits chainId body) :
      (∃ event ∈ a.heard chainId body, Inserts event.question) → a.lastId = b.lastId := by
    rintro ⟨event, hevent, hinserts⟩
    obtain ⟨visit, hvisit, rfl⟩ := List.mem_map.1 hevent
    apply hid
    exact ⟨visit, hbody ▸ hvisit, hinserts⟩
  cases request with
  | statement s =>
    have hrun := h.run (hbody (Dialogue.question (S := statements) s) rfl)
    obtain ⟨hresult, hlater⟩ := h.execute s fun hinserts => hid ⟨_, List.mem_singleton_self _, hinserts⟩
    exact ⟨hrun.1, hresult, hlater⟩
  | updateContract contractId source target =>
    exact ⟨rfl, (confined_updateContract chainId contractId source target).alike a b h⟩
  | stats => exact ⟨rfl, (confined_stats chainId).alike a b h⟩
  | transaction body =>
    obtain ⟨hheard, houtcome, hlater⟩ := h.run (hbody body rfl)
    refine ⟨hheard, ?_⟩
    dsimp only [Store.serve, transaction]
    generalize a.run chainId body = x at houtcome hlater ⊢
    generalize b.run chainId body = y at houtcome hlater ⊢
    obtain ⟨outcome, alater⟩ := x
    obtain ⟨_, blater⟩ := y
    cases houtcome
    rcases outcome with c | e | v
    · exact ⟨rfl, h⟩
    · exact ⟨rfl, h⟩
    · exact ⟨rfl, hlater⟩

/-! ## Isolation -/

/-- What a request of one chain has to do with the others. -/
structure Isolated (chainId : String) (request : Request) (store : Store) : Prop where
  others : (store.serve chainId request).2.otherRows chainId = store.otherRows chainId
  /-- Every row that is shown is one of the chain's own, as it is at that time. -/
  shown : ∀ visit ∈ store.visited chainId request, ∀ row ∈ shown visit.2.question visit.2.answer,
    row ∈ visit.1.chainRows chainId
  /-- Every number in the result counts the chain's own rows: it is the same where there are no others. -/
  counted : ((store.alone chainId).serve chainId request).1 = (store.serve chainId request).1
  alike : ∀ other, AlikeFor chainId store other → (store.InsertsIn chainId request → store.lastId = other.lastId) →
    (store.visited chainId request).map Prod.snd = (other.visited chainId request).map Prod.snd ∧
      (store.serve chainId request).1 = (other.serve chainId request).1 ∧
      AlikeFor chainId (store.serve chainId request).2 (other.serve chainId request).2
  fresh : ∀ visit ∈ store.visited chainId request, ∀ id, given visit.2.question visit.2.answer = some id →
    ∀ row ∈ visit.1.rows, row.id < id

theorem Lawful.isolated (hs : store.Lawful) (chainId : String) (request : Request) :
    Isolated chainId request store where
  others := otherRows_serve chainId request store
  shown := by
    rcases visited_cases chainId request with ⟨α, body, heq⟩ | heq
    · rw [heq]
      exact shown_visits
    · rw [heq]
      exact List.forall_mem_nil _
  counted := ((AlikeFor.alone chainId store).serve fun _ => rfl).2.1
  alike other h := h.serve
  fresh := by
    rcases visited_cases chainId request with ⟨α, body, heq⟩ | heq
    · rw [heq]
      exact given_visits hs
    · rw [heq]
      exact List.forall_mem_nil _

/-! ## Sessions of many chains -/

/-- The store after requests of any chains, one after the other. -/
def after : List (String × Request) → Store → Store
  | [], store => store
  | (chainId, request) :: rest, store => after rest (store.serve chainId request).2

/-- What a chain is answered to its own requests among those of all chains. -/
def answered (chainId : String) : List (String × Request) → Store → List (Σ request : Request, request.Result)
  | [], _ => []
  | (owner, request) :: rest, store =>
    let later := answered chainId rest (store.serve owner request).2
    if owner = chainId then ⟨request, (store.serve owner request).1⟩ :: later else later

theorem Lawful.after (hs : store.Lawful) (requests : List (String × Request)) : (store.after requests).Lawful := by
  induction requests generalizing store with
  | nil => exact hs
  | cons request rest ih => exact ih (lawful_serve hs request.1 request.2)

/-- A chain that asks for no new rows is answered as if it were alone with its own requests. -/
theorem answered_own (h : AlikeFor chainId a b) (requests : List (String × Request))
    (hquiet : ∀ request ∈ requests, request.1 = chainId → ∀ s, ¬Store.InsertsIn chainId request.2 s) :
    answered chainId requests a = answered chainId (requests.filter (·.1 = chainId)) b ∧
      AlikeFor chainId (a.after requests) (b.after (requests.filter (·.1 = chainId))) := by
  induction requests generalizing a b with
  | nil => exact ⟨rfl, h⟩
  | cons head rest ih =>
    obtain ⟨owner, request⟩ := head
    rw [List.forall_mem_cons] at hquiet
    rcases eq_or_ne owner chainId with rfl | hne
    · obtain ⟨_, hresult, hlater⟩ := h.serve fun hinserts => absurd hinserts (hquiet.1 rfl a)
      obtain ⟨hrest, hend⟩ := ih hlater hquiet.2
      rw [List.filter_cons_of_pos (by simp)]
      dsimp only [answered, Store.after]
      rw [if_pos rfl, if_pos rfl, hresult, hrest]
      exact ⟨rfl, hend⟩
    · have hlater : AlikeFor chainId (a.serve owner request).2 b := by
        refine ⟨(table_serve owner request a).trans h.table, ?_⟩
        rw [← h.rows]
        exact chainRows_of_otherRows hne.symm (otherRows_serve owner request a)
      rw [List.filter_cons_of_neg (by simpa using hne)]
      dsimp only [answered, Store.after]
      rw [if_neg hne]
      exact ih hlater hquiet.2

/-- Whatever the chains have asked of a store, in whatever order, the next request is isolated from all chains but
its own. -/
theorem isolated_after (hs : store.Lawful) (requests : List (String × Request)) (chainId : String)
    (request : Request) : Isolated chainId request (store.after requests) :=
  (hs.after requests).isolated chainId request

theorem isolated_after_insert :
    new.migrate.2.Lawful ∧
      Isolated "right" (.statement (.update [1] .started none))
        (new.migrate.2.after [("left", .statement (.insert "contract" "type" [1] 0))]) :=
  ⟨lawful_new, isolated_after lawful_new _ _ _⟩

end ReportRelay.Store
