import ReportRelay.Proofs.Dialogue.Interleaving
import ReportRelay.Proofs.Dispatch.Session
import ReportRelay.Proofs.Queue.Update

/-!
# What a course does to the store

Only statements change the store, and the store answers them as it stands. A course that names the rows it
moves does on those rows alone what it does on the whole store, so dialogues side by side that move different
rows do not disturb each other.
-/

namespace ReportRelay.Dispatch

variable {chainId : String}

theorem nonempty_answer (question : Question) : Nonempty (interface.Answer question) := by
  cases question with
  | client | signer | prices => exact ⟨(⟨0, .error .unnamed⟩ : Reply _)⟩
  | now => exact ⟨(0 : Int)⟩
  | turn => exact ⟨(0 : Nat)⟩
  | store | storeAll => exact ⟨(.error .invalidLimit : Except Error _)⟩
  | log => exact ⟨()⟩

/-- The event happens between two states of the store: the store answers a statement, and whatever else is
asked leaves it as it is. -/
def Meets (chainId : String) : Event interface → Store → Store → Prop
  | ⟨.store statement, a⟩, s, s' => s.execute chainId statement = (a, s')
  | ⟨.storeAll ids state txHash, a⟩, s, s' => s.updateAll chainId ids state txHash = (a, s')
  | _, s, s' => s' = s

def Passes (chainId : String) : Store → List (Event interface) → Store → Prop
  | s, [], s' => s' = s
  | s, e :: es, s' => ∃ m, Meets chainId e s m ∧ Passes chainId m es s'

variable {s s' : Store} {t u v : List (Event interface)}

@[simp] theorem passes_nil : Passes chainId s [] s' ↔ s' = s := Iff.rfl

@[simp] theorem passes_cons {e : Event interface} :
    Passes chainId s (e :: t) s' ↔ ∃ m, Meets chainId e s m ∧ Passes chainId m t s' := Iff.rfl

theorem passes_singleton {e : Event interface} :
    Passes chainId s [e] s' ↔ Meets chainId e s s' := by
  simp

theorem passes_append : Passes chainId s (u ++ v) s' ↔
    ∃ m, Passes chainId s u m ∧ Passes chainId m v s' := by
  induction u generalizing s with
  | nil => simp
  | cons e u ih =>
    simp only [List.cons_append, passes_cons, ih]
    constructor
    · rintro ⟨m, he, n, hu, hv⟩
      exact ⟨n, ⟨m, he, hu⟩, hv⟩
    · rintro ⟨n, ⟨m, he, hu⟩, hv⟩
      exact ⟨m, he, n, hu, hv⟩

theorem meets_unique {e : Event interface} {a b : Store} (ha : Meets chainId e s a)
    (hb : Meets chainId e s b) : a = b := by
  obtain ⟨question, answer⟩ := e
  cases question with
  | store statement =>
    exact congrArg Prod.snd ((show s.execute chainId statement = (answer, a) from ha).symm.trans hb)
  | storeAll ids state txHash =>
    exact congrArg Prod.snd
      ((show s.updateAll chainId ids state txHash = (answer, a) from ha).symm.trans hb)
  | client | signer | prices | now | turn | log =>
    cases ha
    exact hb.symm

/-- What a course makes of a store is determined by the course. -/
theorem passes_unique {a b : Store} (ha : Passes chainId s t a) (hb : Passes chainId s t b) : a = b := by
  induction t generalizing s with
  | nil =>
    cases ha
    exact hb.symm
  | cons e t ih =>
    obtain ⟨m, he, ha⟩ := ha
    obtain ⟨n, he', hb⟩ := hb
    obtain rfl := meets_unique he he'
    exact ih ha hb

theorem evolves_of_meets {e : Event interface} (h : s.Lawful) (he : Meets chainId e s s') :
    s.Evolves s' := by
  obtain ⟨question, a⟩ := e
  cases question with
  | store statement =>
    have hs := Store.evolves_execute h chainId statement
    rwa [show s.execute chainId statement = (a, s') from he] at hs
  | storeAll ids state txHash =>
    have hs := Store.evolves_updateAll h chainId ids state txHash
    rwa [show s.updateAll chainId ids state txHash = (a, s') from he] at hs
  | client | signer | prices | now | turn | log =>
    cases he
    exact .refl h

theorem evolves_of_passes (h : s.Lawful) (ht : Passes chainId s t s') : s.Evolves s' := by
  induction t generalizing s with
  | nil =>
    cases ht
    exact .refl h
  | cons e t ih =>
    obtain ⟨m, he, ht⟩ := ht
    have hm := evolves_of_meets h he
    exact hm.trans (ih hm.lawful ht)

/-- The rows that an event may move, the state that they come to and the hash that they take. -/
def move? : Event interface → Option (List MsgId × MsgState × Option String)
  | ⟨.store (.update ids state txHash), _⟩ | ⟨.storeAll ids state txHash, _⟩ => some (ids, state, txHash)
  | _ => none

/-- A row after an event was there before, is a new one, or was moved along the life cycle. -/
theorem mem_of_meets {e : Event interface} (h : s.Lawful) (he : Meets chainId e s s') {row' : Row}
    (hrow' : row' ∈ s'.rows) :
    row' ∈ s.rows ∨
      (s.lastId < row'.id ∧ row'.chainId = chainId ∧ row'.state = .unstarted ∧ row'.txHash = none) ∨
      ∃ ids state txHash, move? e = some (ids, state, txHash) ∧
        ∃ row ∈ s.rows, row.id ∈ ids ∧ row.state.canMoveTo state = true ∧
          row' = row.moveTo state txHash := by
  obtain ⟨question, a⟩ := e
  cases question with
  | store statement =>
    obtain rfl : (s.execute chainId statement).2 = s' :=
      congrArg Prod.snd (show s.execute chainId statement = (a, s') from he)
    cases statement with
    | insert contractId typeUrl raw now =>
      rw [Store.execute, Store.insert, if_pos h.migrated] at hrow'
      rcases List.mem_append.1 hrow' with hrow | hrow
      · exact .inl hrow
      · obtain rfl := List.mem_singleton.1 hrow
        exact .inr (.inl ⟨Int.lt_succ _, rfl, rfl, rfl⟩)
    | load state limit => exact .inl hrow'
    | find ids => exact .inl hrow'
    | update ids state txHash =>
      rcases Store.mem_update h hrow' with hrow | ⟨row, hrow, hnamed, hmove, heq⟩
      · exact .inl hrow
      · exact .inr (.inr ⟨ids, state, txHash, rfl, row, hrow, (Store.named_iff.1 hnamed).2, hmove, heq⟩)
  | storeAll ids state txHash =>
    obtain rfl : (s.updateAll chainId ids state txHash).2 = s' :=
      congrArg Prod.snd (show s.updateAll chainId ids state txHash = (a, s') from he)
    rcases Store.updateAll_cases s chainId ids state txHash with ⟨heq, _⟩ | ⟨e, heq⟩
    · rw [heq] at hrow'
      rcases Store.mem_update h hrow' with hrow | ⟨row, hrow, hnamed, hmove, heq⟩
      · exact .inl hrow
      · exact .inr (.inr ⟨ids, state, txHash, rfl, row, hrow, (Store.named_iff.1 hnamed).2, hmove, heq⟩)
    · rw [heq] at hrow'
      exact .inl hrow'
  | client | signer | prices | now | turn | log =>
    cases he
    exact .inl hrow'

/-- The event moves the message to the state. -/
def MovesTo (state : MsgState) (id : MsgId) (e : Event interface) : Prop :=
  ∃ ids txHash, move? e = some (ids, state, txHash) ∧ id ∈ ids

/-- A row that is not as it was put in was moved to its state, or it was in it before. -/
theorem mem_or_moved {row : Row} (h : s.Lawful) (ht : Passes chainId s t s') (hrow : row ∈ s'.rows)
    (hstate : row.state ≠ .unstarted) : row ∈ s.rows ∨ ∃ e ∈ t, MovesTo row.state row.id e := by
  induction t generalizing s with
  | nil =>
    cases ht
    exact .inl hrow
  | cons e t ih =>
    obtain ⟨m, he, ht⟩ := ht
    rcases ih (evolves_of_meets h he).lawful ht with hold | ⟨e', he', hmoves⟩
    · rcases mem_of_meets h he hold with hold | ⟨_, _, hnew, _⟩ | ⟨ids, state, txHash, hmove, old, _, hid, _, rfl⟩
      · exact .inl hold
      · exact absurd hnew hstate
      · refine .inr ⟨e, List.mem_cons_self, ids, txHash, ?_, ?_⟩
        · rwa [Row.moveTo_state]
        · rwa [Row.moveTo_id]
    · exact .inr ⟨e', List.mem_cons_of_mem _ he', hmoves⟩

/-- The event does not move the message. -/
def Spares (id : MsgId) (e : Event interface) : Prop :=
  ∀ ids state txHash, move? e = some (ids, state, txHash) → id ∉ ids

theorem mem_of_meets_of_spares {e : Event interface} {row : Row} (h : s.Lawful) (he : Meets chainId e s s')
    (hspares : Spares row.id e) (hrow : row ∈ s.rows) : row ∈ s'.rows := by
  obtain ⟨row', hrow', hevolves⟩ := (evolves_of_meets h he).kept row hrow
  rcases mem_of_meets h he hrow' with
    hold | ⟨hnew, _⟩ | ⟨ids, state, txHash, hmove, old, hold, hid, _, rfl⟩
  · rwa [h.eq_of_id_eq hrow hold hevolves.id.symm]
  · rw [hevolves.id] at hnew
    exact absurd (h.bounded row hrow) (Int.not_le.2 hnew)
  · have heq : old.id = row.id := by rw [← hevolves.id, Row.moveTo_id]
    exact absurd (heq ▸ hid) (hspares ids state txHash hmove)

/-- A message that no event moves stays as it is. -/
theorem mem_of_spares {row : Row} (h : s.Lawful) (ht : Passes chainId s t s')
    (hspares : ∀ e ∈ t, Spares row.id e) (hrow : row ∈ s.rows) : row ∈ s'.rows := by
  induction t generalizing s with
  | nil =>
    cases ht
    exact hrow
  | cons e t ih =>
    obtain ⟨m, he, ht⟩ := ht
    have hm := mem_of_meets_of_spares h he (hspares e List.mem_cons_self) hrow
    exact ih (evolves_of_meets h he).lawful ht (fun e he => hspares e (List.mem_cons_of_mem _ he)) hm

/-! ## Side by side -/

/-- Of the store's statements the event is only a move, of rows with such ids. -/
def Names (p : MsgId → Prop) : Event interface → Prop
  | ⟨.store (.update ids _ _), _⟩ | ⟨.storeAll ids _ _, _⟩ => ∀ id ∈ ids, p id
  | ⟨.store _, _⟩ => False
  | _ => True

theorem Names.imp {p q : MsgId → Prop} {e : Event interface} (h : Names p e) (hpq : ∀ id, p id → q id) :
    Names q e := by
  obtain ⟨question, a⟩ := e
  cases question with
  | store statement =>
    cases statement with
    | insert | load | find => exact h
    | update => exact fun id hid => hpq id (h id hid)
  | storeAll => exact fun id hid => hpq id (h id hid)
  | client | signer | prices | now | turn | log => trivial

theorem Names.spares {p : MsgId → Prop} {e : Event interface} (h : Names p e) {id : MsgId} (hid : ¬p id) :
    Spares id e := by
  intro ids state txHash hmove hmem
  obtain ⟨question, a⟩ := e
  cases question with
  | store statement =>
    cases statement with
    | update =>
      cases hmove
      exact hid (h id hmem)
    | insert | load | find => cases hmove
  | storeAll =>
    cases hmove
    exact hid (h id hmem)
  | client | signer | prices | now | turn | log => cases hmove

variable {only : List MsgId}

theorem meets_restrict {e : Event interface} (hinside : Names (· ∈ only) e)
    (he : Meets chainId e s s') : Meets chainId e (s.restrict only) (s'.restrict only) := by
  obtain ⟨question, a⟩ := e
  cases question with
  | store statement =>
    cases statement with
    | insert | load | find => exact hinside.elim
    | update ids state txHash =>
      have hupdate : s.update chainId ids state txHash = (a, s') := he
      exact (Store.update_restrict hinside).trans (by rw [hupdate]; rfl)
  | storeAll ids state txHash =>
    have hupdate : s.updateAll chainId ids state txHash = (a, s') := he
    exact (Store.updateAll_restrict hinside).trans (by rw [hupdate]; rfl)
  | client | signer | prices | now | turn | log =>
    cases he
    rfl

theorem restrict_of_meets {e : Event interface} (houtside : Names (· ∉ only) e)
    (he : Meets chainId e s s') : s'.restrict only = s.restrict only := by
  obtain ⟨question, a⟩ := e
  cases question with
  | store statement =>
    cases statement with
    | insert | load | find => exact houtside.elim
    | update ids state txHash =>
      have hupdate : s.update chainId ids state txHash = (a, s') := he
      have hrestrict := Store.restrict_update_of_outside s chainId state txHash houtside
      rwa [hupdate] at hrestrict
  | storeAll ids state txHash =>
    have hupdate : s.updateAll chainId ids state txHash = (a, s') := he
    have hrestrict := Store.restrict_updateAll_of_outside s chainId state txHash houtside
    rwa [hupdate] at hrestrict
  | client | signer | prices | now | turn | log =>
    cases he
    rfl

/-- A course that moves only some rows does on them alone what it does among courses that move others. -/
theorem passes_restrict (h : Interleave u v t) (hu : ∀ e ∈ u, Names (· ∈ only) e)
    (hv : ∀ e ∈ v, Names (· ∉ only) e) (ht : Passes chainId s t s') :
    Passes chainId (s.restrict only) u (s'.restrict only) := by
  induction h generalizing s with
  | nil =>
    cases ht
    rfl
  | left _ ih =>
    obtain ⟨m, he, ht⟩ := ht
    exact ⟨m.restrict only, meets_restrict (hu _ List.mem_cons_self) he,
      ih (fun e he => hu e (List.mem_cons_of_mem _ he)) hv ht⟩
  | right _ ih =>
    obtain ⟨m, he, ht⟩ := ht
    rw [← restrict_of_meets (hv _ List.mem_cons_self) he]
    exact ih hu (fun e he => hv e (List.mem_cons_of_mem _ he)) ht

/-- Moves give out no ids. -/
theorem lastId_of_names {p : MsgId → Prop} (h : ∀ e ∈ t, Names p e) (ht : Passes chainId s t s') :
    s'.lastId = s.lastId := by
  have hrestrict : s'.restrict [] = s.restrict [] :=
    passes_restrict (.nil_left t) (List.forall_mem_nil _)
      (fun e he => (h e he).imp fun _ _ => List.not_mem_nil) ht
  have hlast : (s'.restrict []).lastId = (s.restrict []).lastId := by rw [hrestrict]
  exact hlast

/-! ## Histories -/

def Recorded (chainId : String) : Store → List Moment → Store → Prop
  | s, [], s' => s' = s
  | s, m :: ms, s' => Meets chainId m.event s m.store ∧ Recorded chainId m.store ms s'

def events (moments : List Moment) : List (Event interface) :=
  moments.map Moment.event

variable {ms ns : List Moment} {m : Moment}

theorem recorded_append (h : Recorded chainId s ms s') {s'' : Store}
    (h' : Recorded chainId s' ns s'') : Recorded chainId s (ms ++ ns) s'' := by
  induction ms generalizing s with
  | nil => cases h; exact h'
  | cons m ms ih => exact ⟨h.1, ih h.2⟩

theorem Recorded.passes (h : Recorded chainId s ms s') : Passes chainId s (events ms) s' := by
  induction ms generalizing s with
  | nil => exact h
  | cons m ms ih => exact ⟨m.store, h.1, ih h.2⟩

/-- The store of a moment is what all before it and its own event make of the store at the beginning. -/
theorem Recorded.split (h : Recorded chainId s (ms ++ m :: ns) s') :
    (∃ n, Passes chainId s (events ms) n ∧ Meets chainId m.event n m.store) ∧
      Recorded chainId m.store ns s' := by
  induction ms generalizing s with
  | nil => exact ⟨⟨s, rfl, h.1⟩, h.2⟩
  | cons n ms ih =>
    obtain ⟨⟨n', hms, hm⟩, hns⟩ := ih h.2
    exact ⟨⟨n', ⟨n.store, h.1, hms⟩, hm⟩, hns⟩

def CalmEvent : Event interface → Prop
  | ⟨.client _ _, reply⟩ => ∀ c, reply.outcome ≠ .error c
  | _ => True

section
variable {E : Type} (chainId : String) (others : Collaborators E)

theorem meets_respond (question : Question) (env : E) (store : Store) :
    Meets chainId ⟨question, (World.respond chainId others question env store).1⟩ store
      (World.respond chainId others question env store).2.2 := by
  cases question <;> rfl

theorem calmEvent_respond (calm : others.Calm) (question : Question) (env : E) (store : Store) :
    CalmEvent ⟨question, (World.respond chainId others question env store).1⟩ := by
  cases question with
  | client behalf call => exact calm behalf call env
  | signer | prices | now | turn | store | storeAll | log => trivial

/-- What a dialogue does in a world is one of its courses, and the history tells which one. -/
theorem exists_takes_of_run {α : Type} (p : Run α) (world : World E) :
    ∃ ms, (p.run (World.pass others) (World.answer chainId others) world).2.history =
        world.history ++ ms ∧
      p.Takes (events ms) (p.run (World.pass others) (World.answer chainId others) world).1 ∧
      Recorded chainId world.store ms
        (p.run (World.pass others) (World.answer chainId others) world).2.store ∧
      (others.Calm → ∀ m ∈ ms, CalmEvent m.event) := by
  induction p generalizing world with
  | done a => exact ⟨[], (List.append_nil _).symm, ⟨rfl, rfl⟩, rfl, fun _ _ hm => absurd hm List.not_mem_nil⟩
  | crash c => exact ⟨[], (List.append_nil _).symm, ⟨rfl, rfl⟩, rfl, fun _ _ hm => absurd hm List.not_mem_nil⟩
  | wait idle nanos k ih => exact ih () (world.pass others nanos)
  | ask question k ih =>
    have hmeets := meets_respond chainId others question world.env world.store
    obtain ⟨ms, hhistory, htakes, hrecorded, hcalm⟩ :=
      ih (World.answer chainId others question world).1 (World.answer chainId others question world).2
    refine ⟨⟨⟨question, (World.answer chainId others question world).1⟩,
      (World.answer chainId others question world).2.store⟩ :: ms, ?_, ⟨_, _, rfl, htakes⟩,
      ⟨hmeets, hrecorded⟩, fun calm m hm => ?_⟩
    · exact hhistory.trans (by simp [World.answer])
    · rcases List.mem_cons.1 hm with rfl | hm
      · exact calmEvent_respond chainId others calm question world.env world.store
      · exact hcalm calm m hm

/-- What has happened before a command stays at the front of the history. -/
theorem prefix_of_performs (commands : List Command) (world : World E) :
    world.history <+: (commands.foldl (World.perform chainId others) world).history := by
  induction commands generalizing world with
  | nil => exact List.prefix_refl _
  | cons command commands ih =>
    obtain ⟨ms, hhistory, _⟩ := exists_takes_of_run chainId others command.dialogue world
    have hfirst : world.history <+: (world.perform chainId others command).history := ⟨ms, hhistory.symm⟩
    exact hfirst.trans (ih (world.perform chainId others command))

end

/-- A session of one command records one course of it. -/
theorem course_of_command {E : Type} (chainId : String) (others : Collaborators E) (env : E) (start : Store)
    (command : Command) :
    (∃ r, command.dialogue.Takes (events (World.session chainId others env start [command]).history) r) ∧
      Recorded chainId start (World.session chainId others env start [command]).history
        (World.session chainId others env start [command]).store ∧
      (others.Calm →
        ∀ m ∈ (World.session chainId others env start [command]).history, CalmEvent m.event) := by
  obtain ⟨ms, hhistory, htakes, hrecorded, hcalm⟩ :=
    exists_takes_of_run chainId others command.dialogue ⟨env, start, []⟩
  have hall : (World.session chainId others env start [command]).history = ms := hhistory
  rw [hall]
  exact ⟨⟨_, htakes⟩, hrecorded, hcalm⟩

theorem calmEvents_of_command {E : Type} (chainId : String) {others : Collaborators E} (calm : others.Calm) (env : E)
    (start : Store) (command : Command) :
    ∀ e ∈ events (World.session chainId others env start [command]).history, CalmEvent e := by
  obtain ⟨_, _, hcalm⟩ := course_of_command chainId others env start command
  intro e he
  obtain ⟨moment, hmoment, rfl⟩ := List.mem_map.1 he
  exact hcalm calm moment hmoment

/-- The histories of sessions on a store, as they grow by the courses of commands. -/
inductive Happens (chainId : String) (start : Store) : List Moment → Store → Prop
  | nothing : Happens chainId start [] start
  | command {ms ns : List Moment} {s s' : Store} {command : Command} {r : Except Crash Unit}
    (before : Happens chainId start ms s) (takes : command.dialogue.Takes (events ns) r)
    (recorded : Recorded chainId s ns s') : Happens chainId start (ms ++ ns) s'

theorem Happens.recorded {start : Store} (h : Happens chainId start ms s) :
    Recorded chainId start ms s := by
  induction h with
  | nothing => rfl
  | command _ _ hrecorded ih => exact recorded_append ih hrecorded

theorem happens_session {E : Type} (chainId : String) (others : Collaborators E) (env : E) (start : Store)
    (commands : List Command) :
    Happens chainId start (World.session chainId others env start commands).history
        (World.session chainId others env start commands).store ∧
      (others.Calm →
        ∀ m ∈ (World.session chainId others env start commands).history, CalmEvent m.event) := by
  have grows (commands : List Command) (world : World E)
      (h : Happens chainId start world.history world.store ∧
        (others.Calm → ∀ m ∈ world.history, CalmEvent m.event)) :
      Happens chainId start (commands.foldl (World.perform chainId others) world).history
          (commands.foldl (World.perform chainId others) world).store ∧
        (others.Calm → ∀ m ∈ (commands.foldl (World.perform chainId others) world).history,
          CalmEvent m.event) := by
    induction commands generalizing world with
    | nil => exact h
    | cons command commands ih =>
      obtain ⟨ns, hhistory, htakes, hrecorded, hcalm⟩ :=
        exists_takes_of_run chainId others command.dialogue world
      refine ih (world.perform chainId others command) ⟨?_, fun calm m hm => ?_⟩
      · rw [World.perform, hhistory]
        exact h.1.command htakes hrecorded
      · rw [World.perform, hhistory] at hm
        exact (List.mem_append.1 hm).elim (h.2 calm m) (hcalm calm m)
  exact grows commands ⟨env, start, []⟩ ⟨.nothing, fun _ _ hm => absurd hm List.not_mem_nil⟩

theorem lawful_session {E : Type} (chainId : String) (others : Collaborators E) (env : E) {start : Store}
    (h : start.Lawful) (commands : List Command) :
    (World.session chainId others env start commands).store.Lawful :=
  (evolves_of_passes h (happens_session chainId others env start commands).1.recorded.passes).lawful

theorem lawful_payments (count : Nat) : (payments count).Lawful :=
  lawful_session "chain" obliging 0 lawful_emptyStore _

end ReportRelay.Dispatch
