import ReportRelay.Proofs.Dispatch.CommandCourse
import ReportRelay.Proofs.Dispatch.Readiness

/-!
# Messages of one sender take turns

A sender's messages are started in the order of their ids: while one of them is new, none after it has been started.
A batch keeps this up because it starts the oldest new message of a sender, and nothing else starts any.
-/

namespace ReportRelay.Dispatch

variable {chainId : String} {s s' : Store} {settings : Settings} {m : Makeup}
  {es : List (Event interface)} {batch : SenderBatch} {p : Pending} {row : Row}

/-- A lawful store of one chain on which every sender's messages are started in order. -/
structure InTurn (chainId : String) (store : Store) : Prop where
  lawful : store.Lawful
  own : ∀ row ∈ store.rows, row.chainId = chainId
  turns : ∀ a ∈ store.rows, ∀ b ∈ store.rows, ∀ sender, a.sender? = some sender →
    b.sender? = some sender → a.id < b.id → a.state = .unstarted →
    b.state = .unstarted ∨ b.state = .errored

def StartsNone (e : Event interface) : Prop :=
  ∀ ids txHash, move? e ≠ some (ids, .started, txHash)

theorem own_of_meets {e : Event interface} (h : InTurn chainId s) (he : Meets chainId e s s') :
    ∀ row ∈ s'.rows, row.chainId = chainId := by
  intro row hrow
  rcases mem_of_meets h.lawful he hrow with hmem | ⟨_, hchain, _⟩ | ⟨_, _, _, _, before, hmem, _, _, rfl⟩
  · exact h.own row hmem
  · exact hchain
  · exact Row.moveTo_chainId.trans (h.own before hmem)

theorem InTurn.meets {e : Event interface} (h : InTurn chainId s) (he : Meets chainId e s s')
    (hnone : StartsNone e) : InTurn chainId s' := by
  have hevolves := evolves_of_meets h.lawful he
  refine ⟨hevolves.lawful, own_of_meets h he, fun a' ha' b' hb' sender hasender hbsender hlt hnew => ?_⟩
  have ha : a' ∈ s.rows ∨ s.lastId < a'.id := by
    rcases mem_of_meets h.lawful he ha' with hmem | ⟨hlast, _⟩ | ⟨_, state, _, _, a, _, _, hmove, rfl⟩
    · exact .inl hmem
    · exact .inr hlast
    · rw [Row.moveTo_state] at hnew
      rw [hnew] at hmove
      cases hstate : a.state <;> rw [hstate] at hmove <;> cases hmove
  rcases mem_of_meets h.lawful he hb' with
    hb | ⟨_, _, hstate, _⟩ | ⟨ids, state, txHash, hmove?, b, hb, _, hmove, rfl⟩
  · rcases ha with ha | hlast
    · exact h.turns a' ha b' hb sender hasender hbsender hlt hnew
    · exact absurd (Int.lt_trans hlast hlt) (Int.not_lt.2 (h.lawful.bounded b' hb))
  · exact .inl hstate
  · rw [Row.moveTo_id] at hlt
    rw [Row.moveTo_state]
    rcases ha with ha | hlast
    · have hbefore : b.sender? = some sender := by
        rw [← hbsender, Row.sender?, Row.sender?, Row.moveTo_typeUrl, Row.moveTo_raw]
      rcases h.turns a' ha b hb sender hasender hbefore hlt hnew with hb | hb <;> rw [hb] at hmove
      · cases state with
        | started => exact absurd hmove? (hnone ids txHash)
        | errored => exact .inr rfl
        | unstarted | broadcasted | confirmed => cases hmove
      · cases hmove
    · exact absurd (Int.lt_trans hlast hlt) (Int.not_lt.2 (h.lawful.bounded b hb))

theorem InTurn.passes (h : InTurn chainId s) (hpass : Passes chainId s es s')
    (hnone : ∀ e ∈ es, StartsNone e) : InTurn chainId s' := by
  induction es generalizing s with
  | nil =>
    cases hpass
    exact h
  | cons e es ih =>
    obtain ⟨n, he, hpass⟩ := hpass
    exact ih (h.meets he (hnone e List.mem_cons_self)) hpass
      fun e he => hnone e (List.mem_cons_of_mem _ he)

theorem Quiet.startsNone {e : Event interface} (h : Quiet e) : StartsNone e := by
  intro ids txHash hmove
  obtain ⟨question, a⟩ := e
  cases question with
  | store statement =>
    cases statement with
    | update _ state _ =>
      cases hmove
      cases (show MsgState.started = .errored from h)
    | insert | load | find => cases hmove
  | storeAll => exact h.elim
  | client | signer | prices | now | turn | log => cases hmove

theorem SenderEvent.startsNone {behalf : Behalf} {e : Event interface} (h : SenderEvent behalf e) :
    StartsNone e := by
  intro ids txHash hmove
  cases h with
  | plain plain => exact plain.quiet.startsNone ids txHash hmove
  | broadcast | broadcasted | confirmed => cases hmove

theorem SweepCourse.startsNone (h : SweepCourse es) : ∀ e ∈ es, StartsNone e := by
  intro e he
  rcases h.event e he with hquiet | ⟨ids, a, rfl⟩
  · exact hquiet.startsNone
  · intro _ _ hmove
    cases hmove

/-! ## The oldest new message -/

namespace MadeUp

theorem spent_or_pending (h : MadeUp chainId settings m s s') (hloaded : row ∈ m.loaded) {sender : String}
    (hsender : row.sender? = some sender) :
    s'.Spent row.id ∨ ∃ q ∈ m.pending settings, q.row = row ∧ q.sender = sender := by
  obtain ⟨message, hdecode, hmessage⟩ := Row.sender?_eq_some.1 hsender
  rcases find_of_decode settings m.now hdecode with hexpired | hpending
  · exact .inl (h.expired _ (Intake.mem_expired.2 ⟨row, hloaded, hexpired⟩))
  · exact .inr ⟨⟨row, message⟩, Intake.mem_pending.2 ⟨row, hloaded, hpending⟩, rfl, hmessage⟩

theorem sender?_of_mem_msgs (h : MadeUp chainId settings m s s') (hbatch : batch ∈ m.batches)
    (hp : p ∈ batch.msgs.msgs) : p.row.sender? = some batch.msgs.sender := by
  obtain ⟨hpending, hsender⟩ := mem_msgs (h.parted.mem_batches hbatch) hp
  exact Row.sender?_eq_some.2 ⟨p.message, (Intake.row_of_pending hpending).2.2, hsender⟩

/-- The new message in a batch is the oldest new one of its sender that is not spent. -/
theorem next_le (h : MadeUp chainId settings m s s') (hown : ∀ row ∈ s.rows, row.chainId = chainId)
    (hbatch : batch ∈ m.batches) (hp : batch.msgs.next = some p) (hrow : row ∈ s.rows)
    (hsender : row.sender? = some batch.msgs.sender) (hnew : row.state = .unstarted)
    (hnot : ¬s'.Spent row.id) : p.id ≤ row.id := by
  by_contra hlt
  have hnext := h.unstarted_of_next (h.parted.mem_batches hbatch) hp
  have hloaded : row ∈ m.loaded := List.mem_append_right _
    (Store.mem_load_of_older h.lawful h.unstarted hnext hrow (hown row hrow) hnew (Int.not_le.1 hlt))
  obtain ⟨q, hq, rfl, hqsender⟩ := (h.spent_or_pending hloaded hsender).resolve_left hnot
  exact hlt (h.next_le_pending (h.parted.mem_batches hbatch) hp hq hqsender hnew)

/-- Starting the new messages of a batch leaves every sender's messages in turn. -/
theorem inTurn_starting {a : Except Error Unit} {s'' : Store} (h : MadeUp chainId settings m s s')
    (hturn : InTurn chainId s) (hturn' : InTurn chainId s')
    (hstart : Meets chainId (moving (starting m.batches) .started a) s' s'') : InTurn chainId s'' := by
  have hevolves := evolves_of_meets hturn'.lawful hstart
  refine ⟨hevolves.lawful, own_of_meets hturn' hstart, fun a' ha' b' hb' sender hasender hbsender hlt hnew => ?_⟩
  obtain rfl : (s'.update chainId (starting m.batches) .started none).2 = s'' := congrArg Prod.snd hstart
  have ha : a' ∈ s'.rows := by
    rcases Store.mem_update hturn'.lawful ha' with hmem | ⟨_, _, _, _, rfl⟩
    · exact hmem
    · rw [Row.moveTo_state] at hnew
      cases hnew
  rcases Store.mem_update hturn'.lawful hb' with hb | ⟨b, hb, hnamed, _, rfl⟩
  · exact hturn'.turns a' ha b' hb sender hasender hbsender hlt hnew
  · exfalso
    obtain ⟨batch, hbatch, p, hp, hid⟩ := Makeup.mem_starting.1 (Store.named_iff.1 hnamed).2
    have hmsgs : p ∈ batch.msgs.msgs := List.mem_append_right _ (Option.mem_toList.2 hp)
    obtain ⟨hloaded, hrow⟩ := h.mem_row hbatch hmsgs
    obtain rfl := hturn'.lawful.eq_of_id_eq hrow hb hid
    have hsender := h.sender?_of_mem_msgs hbatch hmsgs
    rw [Row.sender?, Row.moveTo_typeUrl, Row.moveTo_raw, ← Row.sender?, hsender] at hbsender
    rw [Row.moveTo_id] at hlt
    have hbound := h.lawful.bounded _ (h.mem_loaded hloaded).1
    obtain ⟨a₀, ha₀, hago⟩ := h.evolves.known a' ha (Int.le_trans (Int.le_of_lt hlt) hbound)
    have hold : a₀.state = .unstarted := (hnew ▸ hago.state).eq_unstarted
    have hle := h.next_le hturn.own hbatch hp ha₀ (by rw [← hago.sender?, hasender, hbsender]) hold
      (by rw [← hago.id]; exact hturn'.lawful.not_spent ha (by rw [hnew]; rfl))
    rw [← hago.id] at hle
    exact Int.not_le.2 hlt hle

end MadeUp

/-! ## Runs -/

theorem Sends.inTurn {s'' : Store} (h : Sends settings m.batches es)
    (hmade : MadeUp chainId settings m s s') (hturn : InTurn chainId s) (hturn' : InTurn chainId s')
    (hpass : Passes chainId s' es s'') : InTurn chainId s'' := by
  have hmoves {n : Store} (hstarts : Passes chainId s' (moves (starting m.batches) .started) n) :
      InTurn chainId n := by
    unfold moves at hstarts
    split at hstarts
    · cases hstarts
      exact hturn'
    · exact hmade.inTurn_starting hturn hturn' (passes_singleton.1 hstarts)
  cases h with
  | stuck => exact hmade.inTurn_starting hturn hturn' (passes_singleton.1 hpass)
  | unpriced =>
    obtain ⟨n, hstarts, _, hprices, rfl⟩ := passes_append.1 hpass
    cases hprices
    exact hmoves hstarts
  | sent merged begun calm =>
    obtain ⟨n, hstarts, _, hprices, hcourses⟩ := passes_append.1 hpass
    cases hprices
    refine (hmoves hstarts).passes hcourses fun e he => ?_
    obtain ⟨batch, _, hevent⟩ := exists_sender merged begun e he
    exact hevent.startsNone

theorem CommandCourse.inTurn (h : CommandCourse es) (hturn : InTurn chainId s)
    (hpass : Passes chainId s es s') : InTurn chainId s' := by
  cases h with
  | quiet quiet => exact hturn.passes hpass fun e he => (quiet e he).startsNone
  | cycle sweep batch =>
    obtain ⟨s₀, hsweep, hpass⟩ := passes_append.1 hpass
    have hswept := hturn.passes hsweep sweep.startsNone
    cases batch with
    | quiet quiet => exact hswept.passes hpass fun e he => (quiet e he).startsNone
    | opened opens sends =>
      obtain ⟨s₁, hopens, hsends⟩ := passes_append.1 hpass
      have hopened := hswept.passes hopens fun e he => (opens.quiet e he).startsNone
      exact sends.inTurn (opens.madeUp hswept.lawful hopens) hswept hopened hsends

theorem inTurn_of_happens {start : Store} {ms : List Moment} (hstart : InTurn chainId start)
    (h : Happens chainId start ms s) : InTurn chainId s := by
  induction h with
  | nothing => exact hstart
  | command _ takes recorded ih =>
    exact (takes_command takes).inTurn ih (passes_deeds.2 recorded.passes)

theorem inTurn_emptyStore : InTurn chainId emptyStore :=
  ⟨lawful_emptyStore, fun _ hrow => absurd hrow List.not_mem_nil, fun _ ha => absurd ha List.not_mem_nil⟩

end ReportRelay.Dispatch
