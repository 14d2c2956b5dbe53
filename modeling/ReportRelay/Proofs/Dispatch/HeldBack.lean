import ReportRelay.Proofs.Dispatch.CommandCourse
import ReportRelay.Proofs.Dispatch.Supply

/-!
# Nothing is sent without a price

New messages are started before the price is known. When there is none, the batch ends there: the client is not called,
and what was started stays started. A later batch that finds a price takes it up again.
-/

namespace ReportRelay.Dispatch

variable {chainId sender : String} {s s' : Store} {settings : Settings} {m : Makeup} {t u es : List (Event interface)}
  {ids : List MsgId} {now : Int} {row row' : Row}

/-! ## The course without a price -/

/-- A price in the token is asked for and not found. -/
def lacksPrice (token : String) : Event interface → Bool
  | ⟨.prices, reply⟩ => !quotes token ⟨.prices, reply⟩
  | _ => false

/-- The sender's key is asked for and not found. -/
def refusesKey (sender : String) : Event interface → Bool
  | ⟨.signer asked, reply⟩ => asked = sender ∧ (Reply.answer? (α := Signer) reply).isNone
  | _ => false

theorem exists_pricing_of_lacksPrice {token : String} {e : Event interface} (h : lacksPrice token e = true) :
    ∃ reply, e = pricing reply ∧ quotes token e = false := by
  obtain ⟨question, reply⟩ := e
  cases question with
  | prices => exact ⟨reply, rfl, (Bool.not_eq_true' _).mp h⟩
  | client | signer | now | turn | store | storeAll | log => cases h

theorem pricing_not_mem {reply : Reply Prices} (h : ∀ e ∈ es, Groundwork e) : pricing reply ∉ es := by
  intro hmem
  cases h _ hmem

theorem Prepares.exists_opens_of_pricing {r : Except Crash (Except Error (Option Plan))} {reply : Reply Prices}
    (h : Prepares settings es r) (hmem : pricing reply ∈ es) : ∃ m opening, Opens settings m opening ∧
      es = opening ++ (moves (starting m.batches) .started ++ [pricing reply]) := by
  rcases h.cases_of_prices with hall | ⟨m, opening, toPrices, hopens, rfl, _⟩
  · exact absurd hmem (pricing_not_mem hall)
  rcases List.mem_append.1 hmem with hmem | hmem
  · exact absurd hmem (pricing_not_mem hopens.groundwork)
  rcases List.mem_append.1 hmem with hmem | hmem
  · exact absurd hmem (pricing_not_mem groundwork_moves)
  · exact ⟨m, opening, hopens, by rw [List.mem_singleton.1 hmem]⟩

theorem Prepares.quotes_of_plan {plan : Plan} {reply : Reply Prices} (h : Prepares settings es (.ok (.ok (some plan))))
    (hmem : pricing reply ∈ es) : quotes settings.gasToken (pricing reply) = true := by
  obtain ⟨m, opening, toPrices, prices, estimated, hopens, hprices, hfound, rfl, _⟩ := h.exists_makeup
  obtain ⟨m', opening', _, heq⟩ := h.exists_opens_of_pricing hmem
  rw [← List.append_assoc, ← List.append_assoc] at heq
  cases List.singleton_inj.1 (List.append_inj_right' heq rfl)
  simp [quotes, pricing, Reply.answer?_of_ok hprices, hfound]

/-- A batch that is told no price makes up what it would send, starts it and ends. -/
theorem exists_opens_of_unpriced {r : Except Crash (Except Error Unit)} (h : (sendMsgBatch settings).Takes t r)
    {reply : Reply Prices} (hmem : pricing reply ∈ deeds t)
    (hmissing : quotes settings.gasToken (pricing reply) = false) : ∃ m opening, Opens settings m opening ∧
      deeds t = opening ++ (moves (starting m.batches) .started ++ [pricing reply]) := by
  rcases cases_of_sendMsgBatch h with ⟨o, hprepare, _⟩ | ⟨plan, u, v, o, rfl, hprepare, hall⟩
  · exact (takes_prepare hprepare).exists_opens_of_pricing hmem
  -- with a plan there was a price, and whoever carries it out asks for none
  exfalso
  rw [deeds_append] at hmem
  rcases List.mem_append.1 hmem with hmem | hmem
  · rw [(takes_prepare hprepare).quotes_of_plan hmem] at hmissing
    cases hmissing
  · obtain ⟨us, hmerge, hbegun, _⟩ := exists_courses_of_sends hall
    obtain ⟨batch, _, hevent⟩ := exists_sender hmerge hbegun _ hmem
    cases hevent with
    | plain plain => cases plain

/-! ## What becomes of the rows -/

def loadable (chainId : String) (settings : Settings) (store : Store) : List Row :=
  store.oldest chainId .started settings.maxMsgsPerBatch ++ store.oldest chainId .unstarted settings.maxMsgsPerBatch

/-- What a batch that is told no price may do to a row. -/
inductive Held (chainId : String) (settings : Settings) (es : List (Event interface)) (now : Int) (store : Store)
    (row : Row) : Row → Prop
  | same : Held chainId settings es now store row row
  | expired (loaded : row ∈ loadable chainId settings store) (late : settings.msgTimeout < now - row.createdAt) :
    Held chainId settings es now store row (row.moveTo .errored none)
  | undecodable (loaded : row ∈ loadable chainId settings store) (unread : row.sender? = none) :
    Held chainId settings es now store row (row.moveTo .errored none)
  | unsignable {sender : String} (loaded : row ∈ loadable chainId settings store)
    (sender_eq : row.sender? = some sender) (refused : es.any (refusesKey sender) = true) :
    Held chainId settings es now store row (row.moveTo .errored none)
  | started {sender : String}
    (first : (store.oldest chainId .unstarted settings.maxMsgsPerBatch).find? (isDue settings now sender) = some row)
    (granted : es.any (grantsKey sender) = true) :
    Held chainId settings es now store row (row.moveTo .started none)

theorem Drawn.loaded_eq {i : Intake} (h : Drawn chainId settings i s) : i.loaded = loadable chainId settings s := by
  rw [Intake.loaded, loadable, (Store.load_ok h.leftover).2, (Store.load_ok h.unstarted).2]

theorem Makeup.Parted.not_mem_starting_of_errored (h : m.Parted settings) (hdistinct : m.Distinct) {id : MsgId}
    (hid : id ∈ m.erroredIds settings) : id ∉ starting m.batches := by
  intro hstarting
  obtain ⟨batch, hbatch, p, hp, rfl⟩ := Makeup.mem_starting.1 hstarting
  have hmem : p ∈ batch.msgs.msgs := List.mem_append_right _ (Option.mem_toList.2 hp)
  obtain ⟨hpending, _⟩ := mem_msgs (h.mem_batches hbatch) hmem
  rcases List.mem_append.1 hid with hid | hid
  · exact hdistinct.not_mem_expired hpending hid
  rcases List.mem_append.1 hid with hid | hid
  · exact hdistinct.not_mem_undecodable hpending hid
  · exact hdistinct.not_mem_unsignableIds h hbatch (List.mem_map_of_mem hmem) hid

theorem Opens.exists_refusesKey (h : Opens settings m es) {g : SenderMsgs} (hg : g ∈ m.unsignable) :
    ∃ e ∈ es, refusesKey g.sender e = true := by
  obtain ⟨reply, e, hasked, hrefused⟩ := h.exists_refusal hg
  have hnone := Reply.answer?_of_failure (show reply.outcome = (Failure.error e).result from hrefused)
  exact ⟨_, hasked, decide_eq_true ⟨rfl, Option.isNone_iff_eq_none.2 hnone⟩⟩

theorem Opens.held_of_errored (h : Opens settings m es) (hdrawn : Drawn chainId settings m.toIntake s)
    (hrow : row ∈ s.rows) (hid : row.id ∈ m.erroredIds settings) (hsub : ∀ e ∈ es, e ∈ t) :
    Held chainId settings t m.now s row (row.moveTo .errored none) := by
  have heq {other : Row} (hother : other ∈ m.loaded) (hotherId : other.id = row.id) : other = row :=
    hdrawn.lawful.eq_of_id_eq (hdrawn.mem_loaded hother).1 hrow hotherId
  rcases List.mem_append.1 hid with hid | hid
  · obtain ⟨other, hother, hfind⟩ := Intake.mem_expired.1 hid
    obtain rfl := heq hother (id_of_expired hfind)
    exact .expired (hdrawn.loaded_eq ▸ hother) (late_of_expired hfind)
  rcases List.mem_append.1 hid with hid | hid
  · obtain ⟨other, hother, e, hfind⟩ := Intake.mem_undecodable.1 hid
    obtain rfl := heq hother (id_of_undecodable hfind)
    exact .undecodable (hdrawn.loaded_eq ▸ hother) (sender?_of_undecodable hfind)
  · obtain ⟨g, hg, hid⟩ := List.mem_flatMap.1 hid
    obtain ⟨p, hp, hpid⟩ := List.mem_map.1 hid
    obtain ⟨hpending, hsender⟩ := mem_msgs (h.parted.mem_unsignable hg) hp
    obtain ⟨hloaded, hfind, _⟩ := Intake.row_of_pending hpending
    obtain rfl := heq hloaded hpid
    obtain ⟨e, hasked, hrefuses⟩ := h.exists_refusesKey hg
    exact .unsignable (hdrawn.loaded_eq ▸ hloaded) (sender?_of_pending hfind)
      (List.any_eq_true.2 ⟨e, hsub e hasked, hsender ▸ hrefuses⟩)

theorem Opens.held_of_starting (h : Opens settings m es) (hdrawn : Drawn chainId settings m.toIntake s)
    (hrow : row ∈ s.rows) (hid : row.id ∈ starting m.batches) (hsub : ∀ e ∈ es, e ∈ t) :
    Held chainId settings t m.now s row (row.moveTo .started none) := by
  obtain ⟨batch, hbatch, p, hp, hpid⟩ := Makeup.mem_starting.1 hid
  have hg := h.parted.mem_batches hbatch
  have hloaded := (Intake.row_of_pending (mem_of_next hg hp).1).1
  obtain rfl := hdrawn.lawful.eq_of_id_eq (hdrawn.mem_loaded hloaded).1 hrow hpid
  obtain ⟨reply, hasked, hgranted⟩ := h.exists_grant hbatch
  have hfirst : (s.oldest chainId .unstarted settings.maxMsgsPerBatch).find?
      (isDue settings m.now batch.msgs.sender) = some p.row := by
    rw [hdrawn.next_eq hg] at hp
    rw [← (Store.load_ok hdrawn.unstarted).2, ← List.head?_filter, ← map_row_duePending, List.head?_map, hp]
    rfl
  have hgrants : grantsKey batch.msgs.sender (asking batch.msgs.sender reply) = true :=
    decide_eq_true ⟨rfl, Option.isSome_iff_exists.2 ⟨_, Reply.answer?_of_ok hgranted⟩⟩
  exact .started hfirst (List.any_eq_true.2 ⟨_, hsub _ hasked, hgrants⟩)

theorem Opens.clockReadings_eq (h : Opens settings m es) : clockReadings es = [m.now] := by
  obtain ⟨asks⟩ := h
  have hmoves {ids : List MsgId} : clockReadings (moves ids .errored) = [] :=
    clockReadings_eq_nil (forall_mem_moves nofun)
  have hasked : clockReadings _ = [] := clockReadings_eq_nil fun e he time heq => by
    obtain ⟨_, _, rfl⟩ := asks.eq_asking e he
    cases heq
  change m.now :: clockReadings (_ ++ (_ ++ (_ ++ _))) = _
  rw [clockReadings_append, clockReadings_append, clockReadings_append, hmoves, hmoves, hmoves, hasked]
  rfl

theorem Opens.exists_held {toPrices : Reply Prices} (h : Opens settings m es) (hs : s.Lawful)
    (hpass : Passes chainId s (es ++ (moves (starting m.batches) .started ++ [pricing toPrices])) s')
    (hsub : ∀ e ∈ es, e ∈ t) : ∃ become : Row → Row, s'.rows = s.rows.map become ∧
      ∀ row ∈ s.rows, Held chainId settings t m.now s row (become row) := by
  obtain ⟨made, hopening, hpass⟩ := passes_append.1 hpass
  obtain ⟨_, hstarts, _, hprices, rfl⟩ := passes_append.1 hpass
  cases hprices
  have hmade := h.madeUp hs hopening
  rw [(passes_moves hmade.evolves.lawful hstarts).1, (h.errors hs hopening).eq_moved]
  refine ⟨_, List.map_map, fun row hrow => ?_⟩
  dsimp only [Function.comp_apply]
  -- first some rows are errored and then others are started
  by_cases herrored : Store.named chainId (m.erroredIds settings) row = true
  · have hid := (Store.named_iff.1 herrored).2
    have hnot : ¬Store.named chainId (starting m.batches) row = true := fun hstarted =>
      h.parted.not_mem_starting_of_errored hmade.distinct hid (Store.named_iff.1 hstarted).2
    rw [if_pos herrored, Store.named_moveTo, if_neg hnot]
    exact h.held_of_errored hmade.toDrawn hrow hid hsub
  · rw [if_neg herrored]
    split_ifs with hstarted
    · exact h.held_of_starting hmade.toDrawn hrow (Store.named_iff.1 hstarted).2 hsub
    · exact .same

/-- The client is not called, every row becomes what it may become, and of every sender at most one new message is
started. -/
structure HeldBack (chainId : String) (settings : Settings) (es : List (Event interface)) (before later : Store) :
    Prop where
  silent : ∀ behalf (call : ClientCall) (reply : Reply call.Result), called behalf call reply ∉ es
  held : ∃ now, clockReadings es = [now] ∧
    List.Forall₂ (Held chainId settings es now before) before.rows later.rows
  oneEach : ∀ a ∈ before.inState chainId .unstarted, ∀ b ∈ before.inState chainId .unstarted,
    ∀ a' ∈ later.inState chainId .started, ∀ b' ∈ later.inState chainId .started,
      a'.id = a.id → b'.id = b.id → a.sender? = b.sender? → a = b

theorem Held.id_eq (h : Held chainId settings es now s row row') : row'.id = row.id := by
  cases h with
  | same => rfl
  | expired | undecodable | unsignable | started => exact Row.moveTo_id

theorem Held.find?_of_started (h : Held chainId settings es now s row row') (hnew : row.state = .unstarted)
    (hstarted : row'.state = .started) : ∃ sender, row.sender? = some sender ∧
      (s.oldest chainId .unstarted settings.maxMsgsPerBatch).find? (isDue settings now sender) = some row := by
  cases h with
  | same =>
    rw [hnew] at hstarted
    cases hstarted
  | expired | undecodable | unsignable =>
    rw [Row.moveTo_state] at hstarted
    cases hstarted
  | started first =>
    obtain ⟨p, hfind, _, rfl⟩ := isDue_iff.1 (List.find?_some first)
    exact ⟨p.sender, sender?_of_pending hfind, first⟩

theorem eq_of_started {become : Row → Row} (hs' : s'.Lawful) (hrows : s'.rows = s.rows.map become)
    (hheld : ∀ row ∈ s.rows, Held chainId settings es now s row (become row)) {a b a' b' : Row}
    (ha : a ∈ s.inState chainId .unstarted) (hb : b ∈ s.inState chainId .unstarted)
    (ha' : a' ∈ s'.inState chainId .started) (hb' : b' ∈ s'.inState chainId .started) (haId : a'.id = a.id)
    (hbId : b'.id = b.id) (hsenders : a.sender? = b.sender?) : a = b := by
  -- what has been started is the first that was due for its sender, and there is only one first
  have hfirst {row row' : Row} (hrow : row ∈ s.inState chainId .unstarted)
      (hrow' : row' ∈ s'.inState chainId .started) (hid : row'.id = row.id) : ∃ sender, row.sender? = some sender ∧
        (s.oldest chainId .unstarted settings.maxMsgsPerBatch).find? (isDue settings now sender) = some row := by
    obtain ⟨hmem, _, hnew⟩ := Store.mem_inState.1 hrow
    obtain ⟨hmem', _, hstarted⟩ := Store.mem_inState.1 hrow'
    have hbecome : become row ∈ s'.rows := hrows ▸ List.mem_map_of_mem hmem
    obtain rfl := hs'.eq_of_id_eq hmem' hbecome (hid.trans (hheld row hmem).id_eq.symm)
    exact (hheld row hmem).find?_of_started hnew hstarted
  obtain ⟨sender, haSender, haFirst⟩ := hfirst ha ha' haId
  obtain ⟨sender', hbSender, hbFirst⟩ := hfirst hb hb' hbId
  rw [haSender, hbSender] at hsenders
  cases hsenders
  exact Option.some.inj (haFirst.symm.trans hbFirst)

theorem Opens.heldBack {reply : Reply Prices} (h : Opens settings m es) (hs : s.Lawful)
    (hdeeds : deeds t = es ++ (moves (starting m.batches) .started ++ [pricing reply]))
    (hpass : Passes chainId s t s') : HeldBack chainId settings t s s' := by
  have hlater := (evolves_of_passes hs hpass).lawful
  rw [← passes_deeds, hdeeds] at hpass
  have hsub : ∀ e ∈ es, e ∈ t := by
    intro e he
    refine List.mem_of_mem_filter (show e ∈ deeds t from ?_)
    rw [hdeeds]
    exact List.mem_append_left _ he
  obtain ⟨become, hrows, hheld⟩ := h.exists_held hs hpass hsub
  refine ⟨fun behalf call toCall hcalled => ?_, ⟨m.now, ?_, ?_⟩, fun a ha b hb a' ha' b' hb' => ?_⟩
  · have hmem : _ ∈ deeds t := List.mem_filter.2 ⟨hcalled, rfl⟩
    rw [hdeeds] at hmem
    rcases List.mem_append.1 hmem with hmem | hmem
    · cases h.groundwork _ hmem
    rcases List.mem_append.1 hmem with hmem | hmem
    · cases groundwork_moves _ hmem
    · cases List.mem_singleton.1 hmem
  · rw [← clockReadings_deeds, hdeeds, clockReadings_append, clockReadings_append, h.clockReadings_eq,
      clockReadings_eq_nil (forall_mem_moves nofun)]
    rfl
  · rw [hrows]
    exact List.forall₂_map_right_iff.2 (List.forall₂_same.2 hheld)
  · exact eq_of_started hlater hrows hheld ha hb ha' hb'

/-! ## A later batch -/

/-- The batch makes and carries out a plan to send the row among what its sender has started. -/
def TakesUp (settings : Settings) (es : List (Event interface)) (sender : String) (row : Row) : Prop :=
  ∃ plan u v o, es = u ++ v ∧ (prepare settings).Takes u (.ok (.ok (some plan))) ∧
    (Dialogue.all (plan.batches.map (sendLogged settings plan.gasPrice))).Takes v o ∧
    ∃ batch ∈ plan.batches, batch.msgs.sender = sender ∧ ∃ p ∈ batch.msgs.started, p.row = row

/-- A batch that finds a price, and whose keystore takes nobody down, takes up every started row for which it has room,
whose sender has a key and whose time is not over. -/
def Resumes (chainId : String) (settings : Settings) (store : Store) : Prop :=
  ∀ (E : Type) (others : Collaborators E) (env : E) (row : Row) (sender : String),
    row ∈ store.oldest chainId .started settings.maxMsgsPerBatch → row.sender? = some sender →
    (∀ e ∈ events (World.session chainId others env store [.sendMsgBatch settings]).history,
      supplies settings.gasToken e = true) →
    (∀ e ∈ events (World.session chainId others env store [.sendMsgBatch settings]).history,
      refusesKey sender e = false) →
    (∀ time ∈ clockReadings (events (World.session chainId others env store [.sendMsgBatch settings]).history),
      ¬settings.msgTimeout < time - row.createdAt) →
    TakesUp settings (events (World.session chainId others env store [.sendMsgBatch settings]).history) sender row

theorem Opens.exists_batch_of_started (h : Opens settings m es) (hs : s.Lawful) (hpass : Passes chainId s es s')
    (hrow : row ∈ s.oldest chainId .started settings.maxMsgsPerBatch) (hsender : row.sender? = some sender)
    (hkey : ∀ e ∈ es, refusesKey sender e = false)
    (htime : ∀ time ∈ clockReadings es, ¬settings.msgTimeout < time - row.createdAt) :
    ∃ batch ∈ m.batches, batch.msgs.sender = sender ∧ ∃ p ∈ batch.msgs.started, p.row = row := by
  have hdrawn := h.reaches.drawn hs hpass
  have hearly := htime m.now (mem_clockReadings h.mem_clockRead)
  rw [← (Store.load_ok hdrawn.leftover).2] at hrow
  obtain ⟨p, hfind, rfl, rfl⟩ := isDue_iff.1 (decide_eq_true (⟨hsender, hearly⟩ : _ ∧ _))
  have hp : p ∈ m.pending settings := Intake.mem_pending.2 ⟨p.row, List.mem_append_left _ hrow, hfind⟩
  obtain ⟨g, hg, hgSender⟩ := exists_bySender hp
  have hstarted : p ∈ g.started :=
    (mem_started hg).2 ⟨hp, hgSender.symm, isStarted_iff.2 (Store.mem_of_load hdrawn.leftover hrow).2.2⟩
  rcases List.mem_append.1 ((Interleave.perm h.parted).mem_iff.1 hg) with hg | hg
  · obtain ⟨batch, hbatch, rfl⟩ := List.mem_map.1 hg
    exact ⟨batch, hbatch, hgSender, p, hstarted, rfl⟩
  · obtain ⟨e, hasked, hrefuses⟩ := h.exists_refusesKey hg
    rw [hgSender, hkey e hasked] at hrefuses
    cases hrefuses

theorem Prepares.exists_plan_of_started {r : Except Crash (Except Error (Option Plan))} (h : Prepares settings es r)
    (hs : s.Lawful) (hpass : Passes chainId s es s') (htimely : settings.msgTimeout ≤ Settings.longestTimeout)
    (hrow : row ∈ s.oldest chainId .started settings.maxMsgsPerBatch) (hsender : row.sender? = some sender)
    (hsupplies : ∀ e ∈ es, supplies settings.gasToken e = true)
    (hkey : ∀ e ∈ es, refusesKey sender e = false)
    (htime : ∀ time ∈ clockReadings es, ¬settings.msgTimeout < time - row.createdAt) :
    ∃ plan, r = .ok (.ok (some plan)) ∧
      ∃ batch ∈ plan.batches, batch.msgs.sender = sender ∧ ∃ p ∈ batch.msgs.started, p.row = row := by
  rcases h.cases_of_supplies hsupplies htimely hs hpass with ⟨_, hnone, _⟩ | ⟨m, hopens, hnobody⟩ | ⟨plan, rfl⟩
  -- the row is something to do, and its sender is somebody to do it
  · rw [hnone] at hrow
    cases hrow
  · obtain ⟨batch, hbatch, _⟩ := hopens.exists_batch_of_started hs hpass hrow hsender hkey htime
    rw [hnobody] at hbatch
    cases hbatch
  · obtain ⟨m, opening, toPrices, _, _, hopens, _, _, rfl, rfl⟩ := h.exists_makeup
    obtain ⟨made, hopening, _⟩ := passes_append.1 hpass
    refine ⟨_, rfl, hopens.exists_batch_of_started hs hopening hrow hsender ?_ fun time hread => ?_⟩
    · exact fun e he => hkey e (List.mem_append_left _ he)
    · refine htime time ?_
      rw [clockReadings_append]
      exact List.mem_append_left _ hread

theorem resumes (hs : s.Lawful) (htimely : settings.msgTimeout ≤ Settings.longestTimeout) :
    Resumes chainId settings s := by
  intro E others env row sender hrow hsender hsupplies hkey htime
  obtain ⟨⟨r, htakes⟩, hrecorded, _⟩ := course_of_command chainId others env s (.sendMsgBatch settings)
  obtain ⟨o, ho⟩ := takes_outcome htakes
  have hpass := hrecorded.passes
  generalize events (World.session chainId others env s [.sendMsgBatch settings]).history = t at *
  have hplan {u : List (Event interface)} {made : Store} {o : Except Crash (Except Error (Option Plan))}
      (hstart : u <+: t) (hu : (prepare settings).Takes u o) (hpass : Passes chainId s u made) :
      ∃ plan, o = .ok (.ok (some plan)) ∧
        ∃ batch ∈ plan.batches, batch.msgs.sender = sender ∧ ∃ p ∈ batch.msgs.started, p.row = row := by
    have hdeeds : ∀ e ∈ deeds u, e ∈ t := fun e he => hstart.subset (List.mem_of_mem_filter he)
    refine (takes_prepare hu).exists_plan_of_started hs (passes_deeds.2 hpass) htimely hrow hsender
      (fun e he => hsupplies e (hdeeds e he)) (fun e he => hkey e (hdeeds e he)) fun time hread => ?_
    rw [clockReadings_deeds] at hread
    exact htime time ((hstart.filterMap _).subset hread)
  rcases cases_of_sendMsgBatch ho with ⟨o, hprepare, hnone⟩ | ⟨plan, u, v, o, rfl, hprepare, hall⟩
  · obtain ⟨plan, rfl, _⟩ := hplan (List.prefix_refl t) hprepare hpass
    exact absurd rfl (hnone plan)
  · obtain ⟨made, hmade, _⟩ := passes_append.1 hpass
    obtain ⟨_, heq, hbatch⟩ := hplan (List.prefix_append u v) hprepare hmade
    cases heq
    exact ⟨plan, u, v, o, rfl, hprepare, hall, hbatch⟩

/-! ## The cycle -/

/-- When the batch of a cycle is told no price, the cycle comes to its end without a call to the client by its batch.
What the batch has started until then is taken up later. -/
theorem heldBack_of_cycle {E : Type} (others : Collaborators E) (chainId : String) (env : E) (store : Store)
    (hs : store.Lawful) (settings : Settings)
    (hprices : ∃ e ∈ batchPhase others chainId env store settings, lacksPrice settings.gasToken e = true) :
    ((pollCycle settings).run (World.pass others) (World.answer chainId others) ⟨env, store, []⟩).1 = .ok () ∧
      HeldBack chainId settings (batchPhase others chainId env store settings)
        (midway others chainId env store settings).store
        (World.session chainId others env store [.pollCycle settings]).store ∧
      Resumes chainId settings (World.session chainId others env store [.pollCycle settings]).store := by
  obtain ⟨hend, ⟨r, htakes⟩, hpass⟩ := course_of_batchPhase others chainId env store settings
  have hmid := lawful_midway others chainId env store settings hs
  obtain ⟨_, u, o, hdeeds, hbatch⟩ := takes_logged htakes
  obtain ⟨e, hmem, hlacks⟩ := hprices
  obtain ⟨reply, rfl, hmissing⟩ := exists_pricing_of_lacksPrice hlacks
  have hasked : pricing reply ∈ deeds u := hdeeds ▸ List.mem_filter.2 ⟨hmem, rfl⟩
  obtain ⟨m, opening, hopens, hu⟩ := exists_opens_of_unpriced hbatch hasked hmissing
  refine ⟨hend, hopens.heldBack hmid (hdeeds.trans hu) hpass, ?_⟩
  have htimely : settings.msgTimeout ≤ Settings.longestTimeout := by
    obtain ⟨_, htimely⟩ := hopens
    exact htimely
  exact resumes (evolves_of_passes hmid hpass).lawful htimely

/-- Nobody can be reached for a price. -/
def unpriced : Collaborators Nat :=
  { obliging with prices := fun failures => (⟨0, .error .unnamed⟩, failures) }

/-- After a cycle without a price the first of two payments is started, and the next batch takes it up. -/
theorem heldBack_of_unpriced :
    (World.session "chain" unpriced 0 (payments 2) [.pollCycle (limitedSettings 2)]).store.rows.map Row.state =
      [.started, .unstarted] ∧
    HeldBack "chain" (limitedSettings 2) (batchPhase unpriced "chain" 0 (payments 2) (limitedSettings 2))
      (midway unpriced "chain" 0 (payments 2) (limitedSettings 2)).store
      (World.session "chain" unpriced 0 (payments 2) [.pollCycle (limitedSettings 2)]).store ∧
    TakesUp (limitedSettings 2) (events (World.session "chain" obliging 0
        (World.session "chain" unpriced 0 (payments 2) [.pollCycle (limitedSettings 2)]).store
        [.sendMsgBatch (limitedSettings 2)]).history)
      "a12uel5l" ⟨1, "chain", "contract", .started, payment.typeUrl, payment.value, none, 0⟩ := by
  obtain ⟨_, hheld, hresumes⟩ := heldBack_of_cycle unpriced "chain" 0 (payments 2) (lawful_payments 2)
    (limitedSettings 2) (by decide +kernel)
  exact ⟨by decide +kernel, hheld, hresumes Nat obliging 0 _ _ (by decide +kernel) (by decide +kernel)
    (by decide +kernel) (by decide +kernel) (by decide +kernel)⟩

end ReportRelay.Dispatch
