import ReportRelay.Proofs.Dispatch.HeldBack
import ReportRelay.Proofs.Dispatch.Marking

/-!
# Messages that come too late

A message that is older than the timeout is never passed on to the client, and when a batch finds it, it is errored
before anything else is done, so that no failure that comes later can save it. A message that can be read and is not
too old is errored only for what happens to its sender.
-/

namespace ReportRelay.Dispatch

variable {chainId sender : String} {s s' n : Store} {settings : Settings} {i : Intake} {m : Makeup}
  {behalf other : Behalf} {e : Event interface} {t u v es : List (Event interface)} {row : Row} {rows : List Row}
  {msgs : List SimMsg} {ids : List MsgId} {id : MsgId} {now : Int} {r : Except Crash (Except Error Unit)}

/-- The message was put in too long ago to be sent. -/
def IsLate (settings : Settings) (now : Int) (row : Row) : Prop :=
  settings.msgTimeout < now - row.createdAt

/-- Of messages, the call passes on those of the given rows and no others. -/
def PassesOn (t : List (Event interface)) (rows : List Row) : ClientCall → Prop
  | .simulateEach msgs _ => List.Forall₂ Conveys rows msgs
  | .simulate messages _ => List.Forall₂ Row.Holds rows messages
  | .createAndSign tx _ => List.Forall₂ Row.Holds rows tx.messages
  | .broadcast bytes => ∃ behalf tx signer toSign, called behalf (.createAndSign tx signer) toSign ∈ t ∧
      toSign.outcome = .ok (.ok bytes) ∧ List.Forall₂ Row.Holds rows tx.messages
  | .account _ | .latestBlock | .lookUp _ => True

/-! ## What is passed on -/

theorem holds_of_conveys (h : List.Forall₂ Conveys rows msgs) :
    List.Forall₂ Row.Holds rows (msgs.map SimMsg.message) :=
  List.forall₂_map_right_iff.2 (h.imp fun _ _ hconveys => hconveys.holds)

/-- A sender's rows have not come too late. -/
theorem timely_of_sentRows (hrow : row ∈ sentRows chainId settings now sender s) :
    row ∈ s.rows ∧ ¬IsLate settings now row := by
  have hdue {limit : Int} {state : MsgState} (hmem : row ∈ s.oldest chainId state limit)
      (hdue : isDue settings now sender row = true) : row ∈ s.rows ∧ ¬IsLate settings now row :=
    ⟨(Store.mem_of_oldest hmem).1, (of_decide_eq_true hdue).2⟩
  rcases List.mem_append.1 hrow with hrow | hrow
  · obtain ⟨hmem, hown⟩ := List.mem_filter.1 hrow
    exact hdue hmem hown
  · have hfound := Option.mem_toList.1 hrow
    exact hdue (List.mem_of_find?_eq_some hfound) (List.find?_some hfound)

theorem SenderEvent.eq_of_called {call : ClientCall} {reply : Reply call.Result}
    (h : SenderEvent behalf (called other call reply)) : other = behalf := by
  cases h with
  | plain plain =>
    cases plain
    rfl
  | broadcast => rfl

/-- Every call is made on behalf of a sender and its rows. -/
theorem ids_of_called {call : ClientCall} {reply : Reply call.Result} (h : (sendMsgBatch settings).Takes t r)
    (hs : s.Lawful) (hpass : Passes chainId s t s') (hclock : ∀ time ∈ clockReadings t, time = now)
    (hmem : called behalf call reply ∈ t) : behalf.ids = batchIds chainId settings now behalf.sender s := by
  have hcall : called behalf call reply ∈ callsFor behalf.sender t := List.mem_filter.2 ⟨hmem, decide_eq_true rfl⟩
  rcases cases_of_callsFor h hs hpass behalf.sender with
    hnone | ⟨time, gasPrice, batch, x, htime, hbehalf, _, hbegun, hcalls⟩
  · rw [hnone] at hcall
    cases hcall
  · obtain rfl := hclock time (mem_clockReadings htime)
    rw [hcalls] at hcall
    have hown := (hbegun.event _ (List.mem_of_mem_filter hcall)).eq_of_called
    rw [← hown] at hbehalf
    exact congrArg Behalf.ids hbehalf

/-- What is broadcast was signed for the same rows. -/
theorem SignedAsSimulated.passesOn {bytes : Bytes} {reply : Reply BroadcastResponse}
    (h : SignedAsSimulated settings behalf rows es) (hmem : called other (.broadcast bytes) reply ∈ es)
    (hsub : ∀ e ∈ es, e ∈ t) : PassesOn t rows (.broadcast bytes) := by
  cases h with
  | @signed msgs tx signer toSign front later conveys led sent =>
    have hlater : called other (.broadcast bytes) reply ∈ later := by
      rcases List.mem_append.1 hmem with hmem | hmem
      · cases led.not_transacts _ hmem
      · rcases List.mem_cons.1 hmem with heq | hmem
        · cases heq
        · exact hmem
    refine ⟨behalf, tx, signer, toSign, hsub _ (List.mem_append_right _ List.mem_cons_self),
      sent other bytes reply hlater, ?_⟩
    obtain ⟨_, _, _, _, _, hmessages⟩ := led
    exact hmessages ▸ holds_of_conveys conveys

theorem Faithful.passesOn {call : ClientCall} {reply : Reply call.Result} (h : Faithful chainId settings now s t)
    (hmem : called behalf call reply ∈ t) : PassesOn t (sentRows chainId settings now behalf.sender s) call := by
  have hcall : called behalf call reply ∈ callsFor behalf.sender t := List.mem_filter.2 ⟨hmem, decide_eq_true rfl⟩
  obtain ⟨msgs, account, tx, signer, bytes, hconveys, hmessages, hscript⟩ :=
    h.asked behalf.sender (List.ne_nil_of_mem hcall)
  have hscripted (hrequest : request? (called behalf call reply) = some call) :
      call ∈ script behalf.sender msgs account tx signer bytes :=
    hscript.subset (List.mem_filterMap.2 ⟨_, hcall, hrequest⟩)
  cases call with
  | account | latestBlock | lookUp => trivial
  | simulateEach =>
    obtain ⟨rfl, rfl⟩ : _ = msgs ∧ _ = account.sequence := by simpa [script] using hscripted rfl
    exact hconveys
  | simulate =>
    obtain ⟨rfl, rfl⟩ : _ = tx.messages ∧ _ = account.sequence := by simpa [script] using hscripted rfl
    exact hmessages ▸ holds_of_conveys hconveys
  | createAndSign =>
    obtain ⟨rfl, rfl⟩ : _ = tx ∧ _ = signer := by simpa [script] using hscripted rfl
    rw [PassesOn, hmessages]
    exact holds_of_conveys hconveys
  | broadcast sent =>
    exact (h.signed behalf.sender ⟨_, hcall, rfl⟩).passesOn hcall fun _ => List.mem_of_mem_filter

/-! ## What is errored -/

theorem Opens.exists_expired (h : Opens settings m es) :
    ∃ rest, es = takenIn settings m.toIntake ++ (moves (m.expired settings) .errored ++ rest) := by
  cases h
  exact ⟨_, rfl⟩

/-- Once messages are taken in, those that have expired are errored before all else. -/
theorem Prepares.exists_expired {o : Except Crash (Except Error (Option Plan))} (h : Prepares settings es o)
    (hs : s.Lawful) (hpass : Passes chainId s es s') (htimely : settings.msgTimeout ≤ Settings.longestTimeout) :
    loadable chainId settings s = [] ∨
      ∃ i rest, es = takenIn settings i ++ (moves (i.expired settings) .errored ++ rest) := by
  have hunable {e : Error} {state : MsgState}
      (hload : s.load chainId state settings.maxMsgsPerBatch = .error e) : loadable chainId settings s = [] := by
    have hlimit := Store.lt_one_of_load hs hload
    rw [loadable, Store.oldest_eq_nil hlimit, Store.oldest_eq_nil hlimit]
    rfl
  cases h with
  | unloaded => exact .inl (hunable (loaded_of_passes hpass).1)
  | halfLoaded => exact .inl (hunable (loaded_of_passes (loaded_of_passes hpass).2).1)
  | idle =>
    obtain ⟨hleftover, hpass⟩ := loaded_of_passes hpass
    rw [loadable, ← (Store.load_ok hleftover).2, ← (Store.load_ok (loaded_of_passes hpass).1).2]
    exact .inl rfl
  | untimely tooLong => exact absurd htimely (Nat.not_le.2 tooLong)
  | notExpired =>
    obtain ⟨hdrawn, hpass⟩ := drawn_of_takenIn hs hpass
    exact absurd hpass (not_refused hs hdrawn.movable_expired (by decide))
  | @notDropped i | @notAsked i => exact .inr ⟨i, _, rfl⟩
  | @notMarked m => exact .inr ⟨m.toIntake, _, rfl⟩
  | noBatches opens =>
    obtain ⟨rest, hes⟩ := opens.exists_expired
    exact .inr ⟨_, rest, hes⟩
  | notStarted opens | unpriced opens | planned opens =>
    obtain ⟨rest, rfl⟩ := opens.exists_expired
    exact .inr ⟨_, _, (List.append_assoc ..).trans (congrArg _ (List.append_assoc ..))⟩

theorem Intake.mem_expired_of_late (hrow : row ∈ i.loaded) (hlate : IsLate settings i.now row) :
    row.id ∈ i.expired settings :=
  Intake.mem_expired.2 ⟨row, hrow, if_pos hlate⟩

/-- A message that is errored stays so. -/
theorem errored_of_passes (hs : s.Lawful) (hpass : Passes chainId s t s')
    (h : ∃ row ∈ s.rows, row.id = id ∧ row.state = .errored) :
    ∃ row ∈ s'.rows, row.id = id ∧ row.state = .errored := by
  obtain ⟨row, hrow, rfl, hstate⟩ := h
  obtain ⟨later, hlater, hevolves⟩ := (evolves_of_passes hs hpass).kept row hrow
  exact ⟨later, hlater, hevolves.id, (hevolves.state.eq_of_isTerminal (by rw [hstate]; rfl)).trans hstate⟩

/-- Every late message that a batch loads is errored once the batch is prepared, even if it is not prepared to its
end. -/
theorem errored_of_preparing {o : Except Crash (Except Error (Option Plan))} (h : (prepare settings).Takes u o)
    (hs : s.Lawful) (hpass : Passes chainId s u n) (htimely : settings.msgTimeout ≤ Settings.longestTimeout)
    (hclock : ∀ time ∈ clockReadings u, time = now) (hrow : row ∈ loadable chainId settings s)
    (hlate : IsLate settings now row) : ∃ row' ∈ n.rows, row'.id = row.id ∧ row'.state = .errored := by
  rw [← passes_deeds] at hpass
  rcases (takes_prepare h).exists_expired hs hpass htimely with hnone | ⟨i, rest, hdeeds⟩
  · rw [hnone] at hrow
    cases hrow
  have hread : clockRead i.now ∈ deeds u := by
    rw [hdeeds]
    exact List.mem_append_left _ (List.mem_of_getLast? rfl)
  obtain rfl := hclock i.now (mem_clockReadings (List.mem_of_mem_filter hread))
  rw [hdeeds] at hpass
  obtain ⟨hdrawn, hpass⟩ := drawn_of_takenIn hs hpass
  obtain ⟨errored, hmoves, hrest⟩ := passes_append.1 hpass
  have hexpired := Intake.mem_expired_of_late (hdrawn.loaded_eq ▸ hrow) hlate
  obtain ⟨row', hrow', _, herrored⟩ := (passes_moves hs hmoves).2 row.id hexpired
  exact errored_of_passes (evolves_of_passes hs hmoves).lawful hrest ⟨row', hrow', herrored⟩

theorem errored_of_takes (h : (sendMsgBatch settings).Takes t r) (hs : s.Lawful) (hpass : Passes chainId s t s')
    (htimely : settings.msgTimeout ≤ Settings.longestTimeout) (hclock : ∀ time ∈ clockReadings t, time = now)
    (hrow : row ∈ loadable chainId settings s) (hlate : IsLate settings now row) :
    ∃ row' ∈ s'.rows, row'.id = row.id ∧ row'.state = .errored := by
  rcases cases_of_sendMsgBatch h with ⟨o, hprepare, _⟩ | ⟨plan, u, v, o, rfl, hprepare, _⟩
  · exact errored_of_preparing hprepare hs hpass htimely hclock hrow hlate
  · obtain ⟨n, hprepared, hsent⟩ := passes_append.1 hpass
    have herrored := errored_of_preparing hprepare hs hprepared htimely
      (fun time htime => hclock time (by simp [htime])) hrow hlate
    exact errored_of_passes (evolves_of_passes hs hprepared).lawful hsent herrored

/-! ## What is spared -/

/-- Every key that is asked for is found. -/
def KeysFound (t : List (Event interface)) : Prop :=
  ∀ sender reply, asking sender reply ∈ t → ∃ signer, reply.outcome = .ok (.ok signer)

/-- If the event errors messages, they are among the given ones. -/
def ErrsOnly (ids : List MsgId) (e : Event interface) : Prop :=
  ∀ id, MovesTo .errored id e → id ∈ ids

theorem errsOnly_of_unmoved (h : move? e = none) : ErrsOnly ids e := by
  rintro id ⟨_, _, hmove, _⟩
  rw [h] at hmove
  cases hmove

theorem errsOnly_moving {moved : List MsgId} {a : Except Error Unit} (h : ∀ id ∈ moved, id ∈ ids) :
    ErrsOnly ids (moving moved .errored a) := by
  rintro id ⟨_, _, hmove, hid⟩
  cases hmove
  exact h id hid

theorem errsOnly_starting {moved : List MsgId} {a : Except Error Unit} : ErrsOnly ids (moving moved .started a) := by
  rintro id ⟨_, _, hmove, _⟩
  cases hmove

theorem errsOnly_asked {asked : List (Event interface)} (h : ∀ e ∈ asked, ∃ sender reply, e = asking sender reply) :
    ∀ e ∈ asked, ErrsOnly ids e := by
  intro e he
  obtain ⟨_, _, rfl⟩ := h e he
  exact errsOnly_of_unmoved rfl

/-- The messages that are errored for what they are, and not for their senders. -/
def Intake.unfit (settings : Settings) (i : Intake) : List MsgId :=
  i.expired settings ++ i.undecodable settings

theorem errsOnly_takenIn : ∀ e ∈ takenIn settings i, ErrsOnly ids e := by
  simp only [takenIn, List.forall_mem_cons]
  exact ⟨errsOnly_of_unmoved rfl, errsOnly_of_unmoved rfl, errsOnly_of_unmoved rfl, List.forall_mem_nil _⟩

theorem errsOnly_expired : ∀ e ∈ moves (i.expired settings) .errored, ErrsOnly (i.unfit settings) e :=
  forall_mem_moves (errsOnly_moving fun _ => List.mem_append_left _)

theorem errsOnly_undecodable : ∀ e ∈ moves (i.undecodable settings) .errored, ErrsOnly (i.unfit settings) e :=
  forall_mem_moves (errsOnly_moving fun _ => List.mem_append_right _)

theorem Asks.unsignable_eq_nil {gs unsignable : List SenderMsgs} {batches : List SenderBatch}
    (h : Asks gs es batches unsignable) (hkeys : KeysFound es) : unsignable = [] := by
  rw [List.eq_nil_iff_forall_not_mem]
  intro g hg
  obtain ⟨reply, e, hasked, hrefused⟩ := h.exists_refusal hg
  obtain ⟨signer, hfound⟩ := hkeys g.sender reply hasked
  cases hrefused.symm.trans hfound

theorem Asks.not_mem_unsignableIds {es : List (Event interface)}
    (h : Asks (bySender (m.pending settings)) es m.batches m.unsignable) (hkeys : KeysFound es) :
    ∀ id ∈ m.unsignableIds, id ∈ ids := by
  rw [Makeup.unsignableIds, h.unsignable_eq_nil hkeys]
  exact List.forall_mem_nil _

theorem KeysFound.mono (h : KeysFound t) (hsub : ∀ e ∈ es, e ∈ t) : KeysFound es :=
  fun sender reply hmem => h sender reply (hsub _ hmem)

theorem Opens.errsOnly (h : Opens settings m es) (hkeys : KeysFound es) :
    ∀ e ∈ es, ErrsOnly (m.unfit settings) e := by
  cases h with
  | @opened asked asks =>
    have hnone : ∀ id ∈ m.unsignableIds, id ∈ m.unfit settings :=
      asks.not_mem_unsignableIds (hkeys.mono fun e he => by simp [he])
    have hrest : ∀ e ∈ moves (m.expired settings) .errored ++ (moves (m.undecodable settings) .errored ++
        (asked ++ moves m.unsignableIds .errored)), ErrsOnly (m.unfit settings) e := by
      simp only [List.forall_mem_append]
      exact ⟨errsOnly_expired, errsOnly_undecodable, errsOnly_asked asks.eq_asking,
        forall_mem_moves (errsOnly_moving hnone)⟩
    exact List.forall_mem_append.2 ⟨errsOnly_takenIn (i := m.toIntake), hrest⟩

/-- When all keys are found, a preparation errors only messages that are unfit. -/
theorem Prepares.errsOnly {o : Except Crash (Except Error (Option Plan))} (h : Prepares settings es o)
    (hkeys : KeysFound es) : (∀ e ∈ es, move? e = none) ∨
      ∃ i, (∃ rest, es = takenIn settings i ++ rest) ∧ ∀ e ∈ es, ErrsOnly (i.unfit settings) e := by
  cases h with
  | unloaded => exact .inl (List.forall_mem_singleton.2 rfl)
  | halfLoaded | idle => exact .inl (List.forall_mem_cons.2 ⟨rfl, List.forall_mem_singleton.2 rfl⟩)
  | @untimely i => exact .inr ⟨i, ⟨[], (List.append_nil _).symm⟩, errsOnly_takenIn⟩
  | @notExpired i =>
    refine .inr ⟨i, ⟨_, rfl⟩, List.forall_mem_append.2 ⟨errsOnly_takenIn, ?_⟩⟩
    exact List.forall_mem_singleton.2 (errsOnly_moving fun _ => List.mem_append_left _)
  | @notDropped i =>
    refine .inr ⟨i, ⟨_, rfl⟩, ?_⟩
    simp only [List.forall_mem_append]
    exact ⟨errsOnly_takenIn, errsOnly_expired,
      List.forall_mem_singleton.2 (errsOnly_moving fun _ => List.mem_append_right _)⟩
  | @notAsked i _ _ asked_eq =>
    refine .inr ⟨i, ⟨_, rfl⟩, ?_⟩
    simp only [List.forall_mem_append]
    exact ⟨errsOnly_takenIn, errsOnly_expired, errsOnly_undecodable, errsOnly_asked asked_eq⟩
  | @notMarked m _ _ asks =>
    have hnone : ∀ id ∈ m.unsignableIds, id ∈ m.unfit settings :=
      asks.not_mem_unsignableIds (hkeys.mono fun e he => by simp [he])
    refine .inr ⟨m.toIntake, ⟨_, rfl⟩, ?_⟩
    simp only [List.forall_mem_append]
    exact ⟨errsOnly_takenIn, errsOnly_expired, errsOnly_undecodable, errsOnly_asked asks.eq_asking,
      List.forall_mem_singleton.2 (errsOnly_moving hnone)⟩
  | noBatches opens =>
    obtain ⟨rest, hes⟩ := opens.exists_expired
    exact .inr ⟨_, ⟨_, hes⟩, opens.errsOnly hkeys⟩
  | notStarted opens =>
    have hopening := opens.errsOnly (hkeys.mono fun e => List.mem_append_left _)
    obtain ⟨rest, rfl⟩ := opens.exists_expired
    refine .inr ⟨_, ⟨_, List.append_assoc ..⟩, ?_⟩
    exact List.forall_mem_append.2 ⟨hopening, List.forall_mem_singleton.2 errsOnly_starting⟩
  | unpriced opens | planned opens =>
    have hopening := opens.errsOnly (hkeys.mono fun e => List.mem_append_left _)
    obtain ⟨rest, rfl⟩ := opens.exists_expired
    refine .inr ⟨_, ⟨_, List.append_assoc ..⟩, List.forall_mem_append.2 ⟨hopening, ?_⟩⟩
    exact List.forall_mem_append.2 ⟨forall_mem_moves errsOnly_starting,
      List.forall_mem_singleton.2 (errsOnly_of_unmoved rfl)⟩

theorem Drawn.not_mem_unfit (h : Drawn chainId settings i s) (hrow : row ∈ s.rows) (hread : row.sender?.isSome = true)
    (hearly : ¬IsLate settings i.now row) : row.id ∉ i.unfit settings := by
  have heq {other : Row} (hother : other ∈ i.loaded) (hid : other.id = row.id) : other = row :=
    h.lawful.eq_of_id_eq (h.mem_loaded hother).1 hrow hid
  intro hid
  rcases List.mem_append.1 hid with hid | hid
  · obtain ⟨other, hother, hfind⟩ := Intake.mem_expired.1 hid
    obtain rfl := heq hother (id_of_expired hfind)
    exact hearly (late_of_expired hfind)
  · obtain ⟨other, hother, e, hfind⟩ := Intake.mem_undecodable.1 hid
    obtain rfl := heq hother (id_of_undecodable hfind)
    rw [sender?_of_undecodable hfind] at hread
    cases hread

theorem not_plan_of_unpriced {o : Except Crash (Except Error (Option Plan))} (h : Prepares settings es o)
    (hprice : ∀ e ∈ es, quotes settings.gasToken e = false) (plan : Plan) : o ≠ .ok (.ok (some plan)) := by
  rintro rfl
  obtain ⟨m, opening, toPrices, _, _, _, _, _, hes, _⟩ := h.exists_makeup
  have hasked : pricing toPrices ∈ es := by simp [hes]
  have hquotes := h.quotes_of_plan hasked
  rw [hprice _ hasked] at hquotes
  cases hquotes

/-- When all keys are found and no price is, a message that can be read and is not late is not errored. -/
theorem spared_of_takes (h : (sendMsgBatch settings).Takes t r) (hs : s.Lawful) (hpass : Passes chainId s t s')
    (hclock : ∀ time ∈ clockReadings t, time = now) (hkeys : KeysFound t)
    (hprice : ∀ e ∈ t, quotes settings.gasToken e = false) (hrow : row ∈ s.rows) (hread : row.sender?.isSome = true)
    (hearly : ¬IsLate settings now row) (hstate : row.state ≠ .errored) :
    ∀ row' ∈ s'.rows, row'.id = row.id → row'.state ≠ .errored := by
  intro row' hrow' hid herrored
  have hsub : ∀ e ∈ deeds t, e ∈ t := fun _ => List.mem_of_mem_filter
  rcases cases_of_sendMsgBatch h with ⟨o, hprepare, _⟩ | ⟨plan, u, v, o, rfl, hprepare, _⟩
  · rcases mem_or_moved hs hpass hrow' (by rw [herrored]; nofun) with hold | ⟨e, he, hmoves⟩
    · rw [hs.eq_of_id_eq hold hrow hid] at herrored
      exact hstate herrored
    rw [herrored, hid] at hmoves
    obtain ⟨ids, txHash, hmove, _⟩ := id hmoves
    have hdeed : e ∈ deeds t := List.mem_filter.2 ⟨he, isDeed_of_move hmove⟩
    rcases (takes_prepare hprepare).errsOnly (hkeys.mono hsub) with hnone | ⟨i, ⟨rest, hdeeds⟩, herrs⟩
    · rw [hnone e hdeed] at hmove
      cases hmove
    · have hread' : clockRead i.now ∈ deeds t := by
        rw [hdeeds]
        exact List.mem_append_left _ (List.mem_of_getLast? rfl)
      obtain rfl := hclock i.now (mem_clockReadings (hsub _ hread'))
      rw [← passes_deeds, hdeeds] at hpass
      exact (drawn_of_takenIn hs hpass).1.not_mem_unfit hrow hread hearly (herrs e hdeed row.id hmoves)
  · have hnot := not_plan_of_unpriced (takes_prepare hprepare)
      (fun e he => hprice e (List.mem_append_left v (List.mem_of_mem_filter he))) plan
    exact hnot rfl

/-! ## The batch -/

/-- What the timeout of messages comes to in a batch: none that is late is passed on, all that are late and loaded are
errored, and no others are when there is only no price. -/
structure Expires (chainId : String) (settings : Settings) (now : Int) (t : List (Event interface))
    (before after : Store) : Prop where
  timely : ∀ sender, ∀ row ∈ sentRows chainId settings now sender before, row ∈ before.rows ∧ ¬IsLate settings now row
  passed : ∀ behalf call (reply : Reply call.Result), called behalf call reply ∈ t →
    behalf.ids = (sentRows chainId settings now behalf.sender before).map Row.id ∧
      PassesOn t (sentRows chainId settings now behalf.sender before) call
  unsent : ∀ row ∈ before.rows, IsLate settings now row →
    ∀ behalf call (reply : Reply call.Result), called behalf call reply ∈ t → row.id ∉ behalf.ids
  errored : settings.msgTimeout ≤ Settings.longestTimeout → ∀ row ∈ loadable chainId settings before,
    IsLate settings now row → ∃ row' ∈ after.rows, row'.id = row.id ∧ row'.state = .errored
  spared : KeysFound t → (∀ e ∈ t, quotes settings.gasToken e = false) → ∀ row ∈ before.rows,
    row.sender?.isSome = true → ¬IsLate settings now row → row.state ≠ .errored →
      ∀ row' ∈ after.rows, row'.id = row.id → row'.state ≠ .errored

theorem expires_of_takes (h : (sendMsgBatch settings).Takes t r) (hs : s.Lawful) (hpass : Passes chainId s t s')
    (hclock : ∀ time ∈ clockReadings t, time = now) : Expires chainId settings now t s s' where
  timely _ _ := timely_of_sentRows
  passed behalf call reply hmem :=
    ⟨ids_of_called h hs hpass hclock hmem, (faithful_of_takes h hs hpass hclock).passesOn hmem⟩
  unsent row hrow hlate behalf call reply hmem hid := by
    rw [ids_of_called h hs hpass hclock hmem] at hid
    obtain ⟨other, hother, heq⟩ := List.mem_map.1 hid
    obtain ⟨hmem, hearly⟩ := timely_of_sentRows hother
    rw [hs.eq_of_id_eq hmem hrow heq] at hearly
    exact hearly hlate
  errored htimely _ hrow := errored_of_takes h hs hpass htimely hclock hrow
  spared hkeys hprice _ hrow := spared_of_takes h hs hpass hclock hkeys hprice hrow

/-- Whatever the keystore, the prices and the client do, a message that is older than the timeout when a batch begins is
not passed on to the client, and if it is loaded, it is errored in the end. When all keys are found and there is no
price, no message that can be read and is not too old is errored. -/
theorem expires_of_batch {E : Type} (others : Collaborators E) (chainId : String) (env : E) (store : Store)
    (hs : store.Lawful) (settings : Settings) (now : Int)
    (hclock : ∀ time ∈ clockReadings
      (events (World.session chainId others env store [.sendMsgBatch settings]).history), time = now) :
    Expires chainId settings now (events (World.session chainId others env store [.sendMsgBatch settings]).history)
      store (World.session chainId others env store [.sendMsgBatch settings]).store := by
  obtain ⟨⟨r, htakes⟩, hrecorded, _⟩ := course_of_command chainId others env store (.sendMsgBatch settings)
  obtain ⟨o, ho⟩ := takes_outcome htakes
  exact expires_of_takes ho hs hrecorded.passes hclock

/-- As `unpriced`, but one nanosecond later. -/
def unpricedLater : Collaborators Nat :=
  { unpriced with now := fun failures => (1, failures) }

/-- A payment that comes too late by then, and one that does not. -/
def lateAndEarly : Store :=
  (World.session "chain" unpricedLater 0 (payments 1) [.enqueue "contract" payment]).store

/-- The first payment is errored, and the second one is started only. -/
theorem expires_of_lateAndEarly :
    (loadable "chain" (limitedSettings 2) lateAndEarly).map Row.id = [1, 2] ∧
      (World.session "chain" unpricedLater 0 lateAndEarly [.sendMsgBatch (limitedSettings 2)]).store.rows.map
        Row.state = [.errored, .started] ∧
      Expires "chain" (limitedSettings 2) 1
        (events (World.session "chain" unpricedLater 0 lateAndEarly [.sendMsgBatch (limitedSettings 2)]).history)
        lateAndEarly (World.session "chain" unpricedLater 0 lateAndEarly [.sendMsgBatch (limitedSettings 2)]).store :=
  ⟨by decide +kernel, by decide +kernel, expires_of_batch unpricedLater "chain" 0 lateAndEarly
    (lawful_session "chain" unpricedLater 0 (lawful_payments 1) _) (limitedSettings 2) 1 (by decide +kernel)⟩

end ReportRelay.Dispatch
