import ReportRelay.Proofs.Dispatch.Effect

/-!
# Courses of single steps

What one step of the dispatcher asks. Log lines and waits for the store's turn are left out of the deeds of a
course: they tell nothing and change nothing.
-/

namespace ReportRelay.Dispatch

variable {chainId : String} {s s' : Store} {t u : List (Event interface)}

def isDeed : Event interface → Bool
  | ⟨.log _, _⟩ | ⟨.turn, _⟩ => false
  | _ => true

def deeds (t : List (Event interface)) : List (Event interface) :=
  t.filter isDeed

@[simp] theorem deeds_append : deeds (t ++ u) = deeds t ++ deeds u :=
  List.filter_append t u

/-- Besides its deeds, a course only logs and waits. -/
theorem forall_of_deeds {p : Event interface → Prop} (hlog : ∀ line said, p ⟨.log line, said⟩)
    (hturn : ∀ nanos, p ⟨.turn, nanos⟩) (h : ∀ e ∈ deeds t, p e) : ∀ e ∈ t, p e := by
  intro e he
  cases hdeed : isDeed e with
  | true => exact h e (List.mem_filter.2 ⟨he, hdeed⟩)
  | false =>
    obtain ⟨question, a⟩ := e
    cases question with
    | log line => exact hlog line a
    | turn => exact hturn a
    | client | signer | prices | now | store | storeAll => cases hdeed

theorem isDeed_of_move {e : Event interface} {move : List MsgId × MsgState × Option String}
    (h : move? e = some move) : isDeed e = true := by
  obtain ⟨question, a⟩ := e
  cases question with
  | log | turn => cases h
  | client | signer | prices | now | store | storeAll => rfl

/-- What holds throughout a course holds throughout the parts that its deeds come from. -/
theorem forall_of_deeds_eq {v : List (Event interface)} {p : Event interface → Prop}
    (hlog : ∀ line said, p ⟨.log line, said⟩) (hturn : ∀ nanos, p ⟨.turn, nanos⟩)
    (hdeeds : deeds t = deeds u ++ deeds v) (h : ∀ e ∈ t, p e) : (∀ e ∈ u, p e) ∧ ∀ e ∈ v, p e := by
  have hboth : ∀ e ∈ deeds u ++ deeds v, p e := by
    rw [← hdeeds]
    exact fun e he => h e (List.mem_of_mem_filter he)
  obtain ⟨hu, hv⟩ := List.forall_mem_append.1 hboth
  exact ⟨forall_of_deeds hlog hturn hu, forall_of_deeds hlog hturn hv⟩

theorem exists_of_deeds {p : Event interface → Bool} (hlog : ∀ line said, p ⟨.log line, said⟩ = false)
    (hturn : ∀ nanos, p ⟨.turn, nanos⟩ = false) (h : ∃ e ∈ t, p e = true) : ∃ e ∈ deeds t, p e = true := by
  by_contra hnone
  obtain ⟨e, he, hp⟩ := h
  have hall := forall_of_deeds (p := fun e => p e = false) hlog hturn fun e he => by
    simpa using fun hp => hnone ⟨e, he, hp⟩
  rw [hall e he] at hp
  cases hp

theorem passes_deeds : Passes chainId s (deeds t) s' ↔ Passes chainId s t s' := by
  induction t generalizing s with
  | nil => rfl
  | cons e t ih =>
    obtain ⟨question, a⟩ := e
    cases question with
    | log | turn =>
      exact ih.trans ⟨fun h => ⟨s, rfl, h⟩, fun ⟨_, hm, h⟩ => by cases hm; exact h⟩
    | client | signer | prices | now | store | storeAll =>
      exact exists_congr fun m => and_congr_right fun _ => ih

/-! ## Events -/

def called (behalf : Behalf) (call : ClientCall) (reply : Reply call.Result) : Event interface :=
  ⟨.client behalf call, reply⟩

/-- An attempt to move messages, with what the store says to it. -/
def moving (ids : List MsgId) (state : MsgState) (a : Except Error Unit) : Event interface :=
  ⟨.store (.update ids state none), a⟩

/-- An attempt to move all of some messages, which are in a transaction now. -/
def movingAll (ids : List MsgId) (state : MsgState) (txHash : String) (a : Except Error Unit) :
    Event interface :=
  ⟨.storeAll ids state (some txHash), a⟩

def loading (state : MsgState) (limit : Int) (a : Except Error (List Row)) : Event interface :=
  ⟨.store (.load state limit), a⟩

def asking (sender : String) (reply : Reply Signer) : Event interface :=
  ⟨.signer sender, reply⟩

def pricing (reply : Reply Prices) : Event interface :=
  ⟨.prices, reply⟩

def clockRead (now : Int) : Event interface :=
  ⟨.now, now⟩

/-- The times that the clock showed. -/
def clockReadings (t : List (Event interface)) : List Int :=
  t.filterMap fun e =>
    match e with
    | ⟨.now, time⟩ => some time
    | _ => none

theorem mem_clockReadings {time : Int} (h : clockRead time ∈ t) : time ∈ clockReadings t :=
  List.mem_filterMap.2 ⟨_, h, rfl⟩

@[simp] theorem clockReadings_append : clockReadings (t ++ u) = clockReadings t ++ clockReadings u :=
  List.filterMap_append

theorem clockReadings_eq_nil (h : ∀ e ∈ t, ∀ time, e ≠ clockRead time) : clockReadings t = [] := by
  refine List.filterMap_eq_nil_iff.2 fun e he => ?_
  obtain ⟨question, a⟩ := e
  cases question with
  | now => exact absurd rfl (h _ he a)
  | client | signer | prices | turn | store | storeAll | log => rfl

theorem clockReadings_deeds : clockReadings (deeds t) = clockReadings t := by
  induction t with
  | nil => rfl
  | cons e t ih =>
    obtain ⟨question, a⟩ := e
    cases question with
    | log | turn => exact ih
    | client | signer | prices | store | storeAll => exact ih
    | now => exact congrArg (List.cons _) ih

/-- What is loaded is what the store has to offer. -/
theorem loaded_of_passes {state : MsgState} {limit : Int} {a : Except Error (List Row)}
    (h : Passes chainId s (loading state limit a :: t) s') :
    s.load chainId state limit = a ∧ Passes chainId s t s' := by
  obtain ⟨m, hloading, hpass⟩ := h
  have hanswer : (s.load chainId state limit, s) = (a, m) := hloading
  obtain ⟨hload, rfl⟩ := Prod.mk.inj hanswer
  exact ⟨hload, hpass⟩

/-! ## Steps -/

variable {α : Type}

theorem takes_ask {question : Question} {r : Except Crash question.Answer} :
    (ask question).Takes t r ↔ ∃ a : question.Answer, t = [⟨question, a⟩] ∧ r = .ok a :=
  Dialogue.takes_question

theorem takes_ofReply_ask {p : Run (Reply α)} {event : Reply α → Event interface}
    (hp : ∀ u s, p.Takes u s ↔ ∃ reply, u = [event reply] ∧ s = .ok reply)
    {r : Except Crash (Except Error α)} :
    (Attempt.ofReply p).Takes t r ↔ ∃ reply, t = [event reply] ∧ r = reply.outcome := by
  rw [Attempt.takes_ofReply]
  constructor
  · rintro (⟨c, h, _⟩ | ⟨reply, h, rfl⟩)
    · obtain ⟨_, _, hc⟩ := (hp _ _).1 h
      cases hc
    · obtain ⟨_, ht, hr⟩ := (hp _ _).1 h
      cases hr
      exact ⟨reply, ht, rfl⟩
  · rintro ⟨reply, ht, rfl⟩
    exact .inr ⟨reply, (hp _ _).2 ⟨reply, ht, rfl⟩, rfl⟩

theorem takes_call {behalf : Behalf} {call : ClientCall}
    {r : Except Crash (Except Error call.Result)} :
    (Dispatch.call behalf call).Takes t r ↔
      ∃ reply, t = [called behalf call reply] ∧ r = reply.outcome :=
  takes_ofReply_ask fun _ _ => takes_ask

theorem takes_signerOf {sender : String} {r : Except Crash (Except Error Signer)} :
    (signerOf sender).Takes t r ↔ ∃ reply, t = [asking sender reply] ∧ r = reply.outcome :=
  takes_ofReply_ask fun _ _ => takes_ask

theorem takes_currentPrices {r : Except Crash (Except Error Prices)} :
    currentPrices.Takes t r ↔ ∃ reply, t = [pricing reply] ∧ r = reply.outcome :=
  takes_ofReply_ask fun _ _ => takes_ask

theorem takes_log {line : LogLine} {r : Except Crash Unit} (h : (log line).Takes t r) :
    deeds t = [] ∧ r = .ok () := by
  obtain ⟨_, rfl, rfl⟩ := takes_ask.1 h
  exact ⟨rfl, rfl⟩

theorem takes_logAll {lines : List LogLine} {r : Except Crash Unit} (h : (logAll lines).Takes t r) :
    deeds t = [] ∧ r = .ok () := by
  induction lines generalizing t with
  | nil =>
    obtain ⟨rfl, rfl⟩ := h
    exact ⟨rfl, rfl⟩
  | cons line lines ih =>
    rcases Dialogue.takes_bind.1 h with ⟨c, hc, _⟩ | ⟨_, u, v, rfl, hu, hv⟩
    · cases (takes_log hc).2
    · rw [deeds_append, (takes_log hu).1, (ih hv).1]
      exact ⟨rfl, (ih hv).2⟩

theorem takes_turn_bind {p : Run α} {r : Except Crash α} (h : (turn.bind fun _ => p).Takes t r) :
    ∃ u, deeds t = deeds u ∧ p.Takes u r := by
  unfold turn at h
  rcases Dialogue.takes_bind.1 h with ⟨c, hc, rfl⟩ | ⟨_, u, v, rfl, hu, hv⟩
  · rcases Dialogue.takes_bind.1 hc with ⟨_, hc, _⟩ | ⟨_, _, _, _, _, hc⟩
    · obtain ⟨_, _, h⟩ := takes_ask.1 hc
      cases h
    · cases (Dialogue.takes_pass.1 hc).2
  · refine ⟨v, ?_, hv⟩
    rcases Dialogue.takes_bind.1 hu with ⟨_, _, hc⟩ | ⟨_, x, y, rfl, hx, hy⟩
    · cases hc
    · obtain ⟨_, rfl, _⟩ := takes_ask.1 hx
      obtain ⟨rfl, _⟩ := Dialogue.takes_pass.1 hy
      rfl

theorem takes_execute {statement : Store.Statement}
    {r : Except Crash (Except Error statement.Result)} (h : (execute statement).Takes t r) :
    ∃ a, deeds t = [⟨.store statement, a⟩] ∧ r = .ok a := by
  obtain ⟨u, ht, hu⟩ := takes_turn_bind h
  obtain ⟨a, rfl, rfl⟩ := takes_ask.1 hu
  exact ⟨a, ht, rfl⟩

theorem takes_load {state : MsgState} {limit : Int} {r : Except Crash (Except Error (List Row))}
    (h : (load state limit).Takes t r) : ∃ a, deeds t = [loading state limit a] ∧ r = .ok a :=
  takes_execute h

theorem takes_update {ids : List MsgId} {state : MsgState} {r : Except Crash (Except Error Unit)}
    (h : (update ids state).Takes t r) : ∃ a, deeds t = [moving ids state a] ∧ r = .ok a :=
  takes_execute h

theorem takes_updateAll {ids : List MsgId} {state : MsgState} {txHash : String}
    {r : Except Crash (Except Error Unit)} (h : (updateAll ids state txHash).Takes t r) :
    ∃ a, deeds t = [movingAll ids state txHash a] ∧ r = .ok a := by
  obtain ⟨u, ht, hu⟩ := takes_turn_bind h
  obtain ⟨a, rfl, rfl⟩ := takes_ask.1 hu
  exact ⟨a, ht, rfl⟩

theorem takes_lift_bind {p : Run Unit} {x : Action α} {r : Except Crash (Except Error α)}
    (hp : ∀ u s, p.Takes u s → deeds u = [] ∧ s = .ok ())
    (h : ((p : Action Unit) >>= fun _ => x).Takes t r) : ∃ u, deeds t = deeds u ∧ x.Takes u r := by
  rcases Attempt.takes_ofDialogue_bind.1 h with ⟨c, hc, _⟩ | ⟨_, u, v, rfl, hu, hv⟩
  · cases (hp t _ hc).2
  · exact ⟨v, by rw [deeds_append, (hp u _ hu).1]; rfl, hv⟩

theorem takes_log_bind {line : LogLine} {x : Action α} {r : Except Crash (Except Error α)}
    (h : ((log line : Action Unit) >>= fun _ => x).Takes t r) : ∃ u, deeds t = deeds u ∧ x.Takes u r :=
  takes_lift_bind (fun _ _ => takes_log) h

theorem takes_logAll_bind {lines : List LogLine} {x : Action α}
    {r : Except Crash (Except Error α)} (h : ((logAll lines : Action Unit) >>= fun _ => x).Takes t r) :
    ∃ u, deeds t = deeds u ∧ x.Takes u r :=
  takes_lift_bind (fun _ _ => takes_logAll) h

end ReportRelay.Dispatch
