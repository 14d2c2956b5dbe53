import ReportRelay.Proofs.Dispatch.Step

/-!
# Preparation of a batch

Before anything is sent, messages are loaded, those that cannot be sent are errored, new ones are started and a
price is found. A preparation that comes to its end hands over a plan: who sends what, and at which price.
-/

namespace ReportRelay.Dispatch

variable {t : List (Event interface)} {settings : Settings}

/-! ## What a batch is made up of -/

/-- What is known before anything is decided: the loaded rows and the time. -/
structure Intake where
  leftover : List Row
  unstarted : List Row
  now : Int

namespace Intake

variable (settings : Settings) (i : Intake)

def loaded : List Row :=
  i.leftover ++ i.unstarted

def findings : List Finding :=
  i.loaded.map (find settings i.now)

def expired : List MsgId :=
  (i.findings settings).filterMap Finding.expired?

def undecodable : List MsgId :=
  ((i.findings settings).filterMap Finding.undecodable?).map Prod.fst

def pending : List Pending :=
  (i.findings settings).filterMap Finding.pending?

end Intake

/-- An intake, together with who can sign and who cannot. -/
structure Makeup extends Intake where
  batches : List SenderBatch
  unsignable : List SenderMsgs

def Makeup.unsignableIds (m : Makeup) : List MsgId :=
  m.unsignable.flatMap SenderMsgs.ids

def starting (batches : List SenderBatch) : List MsgId :=
  batches.filterMap fun batch => batch.msgs.next.map Pending.id

/-- A move of messages that succeeds; there is none when there are no messages. -/
def moves (ids : List MsgId) (state : MsgState) : List (Event interface) :=
  if ids.isEmpty then [] else [moving ids state (.ok ())]

theorem forall_mem_moves {p : Event interface → Prop} {ids : List MsgId} {state : MsgState}
    (h : p (moving ids state (.ok ()))) : ∀ e ∈ moves ids state, p e := by
  unfold moves
  split
  · exact List.forall_mem_nil _
  · exact List.forall_mem_singleton.2 h

/-- The keys of all senders are asked for, one after the other. -/
inductive Asks : List SenderMsgs → List (Event interface) → List SenderBatch → List SenderMsgs → Prop
  | done : Asks [] [] [] []
  | given {msgs : SenderMsgs} {gs unsignable : List SenderMsgs} {es : List (Event interface)}
    {batches : List SenderBatch} {toSigner : Reply Signer} {signer : Signer}
    (signer_eq : toSigner.outcome = .ok (.ok signer)) (rest : Asks gs es batches unsignable) :
    Asks (msgs :: gs) (asking msgs.sender toSigner :: es) (⟨msgs, signer⟩ :: batches) unsignable
  | refused {msgs : SenderMsgs} {gs unsignable : List SenderMsgs} {es : List (Event interface)}
    {batches : List SenderBatch} {toSigner : Reply Signer} {e : Error}
    (error_eq : toSigner.outcome = .ok (.error e)) (rest : Asks gs es batches unsignable) :
    Asks (msgs :: gs) (asking msgs.sender toSigner :: es) batches (msgs :: unsignable)

namespace Asks

variable {gs unsignable : List SenderMsgs} {es : List (Event interface)} {batches : List SenderBatch}

theorem interleave (h : Asks gs es batches unsignable) :
    Interleave (batches.map SenderBatch.msgs) unsignable gs := by
  induction h with
  | done => exact .nil
  | given _ _ ih => exact ih.left
  | refused _ _ ih => exact ih.right

theorem eq_asking (h : Asks gs es batches unsignable) : ∀ e ∈ es, ∃ sender reply, e = asking sender reply := by
  induction h with
  | done => exact List.forall_mem_nil _
  | given _ _ ih | refused _ _ ih => exact List.forall_mem_cons.2 ⟨⟨_, _, rfl⟩, ih⟩

theorem exists_grant (h : Asks gs es batches unsignable) {batch : SenderBatch} (hbatch : batch ∈ batches) :
    ∃ reply, asking batch.msgs.sender reply ∈ es ∧ reply.outcome = .ok (.ok batch.signer) := by
  induction h with
  | done => cases hbatch
  | given signer_eq _ ih =>
    rcases List.mem_cons.1 hbatch with rfl | hbatch
    · exact ⟨_, List.mem_cons_self, signer_eq⟩
    · obtain ⟨reply, hreply, houtcome⟩ := ih hbatch
      exact ⟨reply, List.mem_cons_of_mem _ hreply, houtcome⟩
  | refused _ _ ih =>
    obtain ⟨reply, hreply, houtcome⟩ := ih hbatch
    exact ⟨reply, List.mem_cons_of_mem _ hreply, houtcome⟩

theorem exists_refusal (h : Asks gs es batches unsignable) {g : SenderMsgs} (hg : g ∈ unsignable) :
    ∃ reply e, asking g.sender reply ∈ es ∧ reply.outcome = .ok (.error e) := by
  induction h with
  | done => cases hg
  | given _ _ ih =>
    obtain ⟨reply, e, hreply, houtcome⟩ := ih hg
    exact ⟨reply, e, List.mem_cons_of_mem _ hreply, houtcome⟩
  | refused error_eq _ ih =>
    rcases List.mem_cons.1 hg with rfl | hg
    · exact ⟨_, _, List.mem_cons_self, error_eq⟩
    · obtain ⟨reply, e, hreply, houtcome⟩ := ih hg
      exact ⟨reply, e, List.mem_cons_of_mem _ hreply, houtcome⟩

end Asks

/-- The course up to the point where all that remain can sign. -/
inductive Opens (settings : Settings) (m : Makeup) : List (Event interface) → Prop
  | opened {asked : List (Event interface)}
    (asks : Asks (bySender (m.pending settings)) asked m.batches m.unsignable)
    (timely : settings.msgTimeout ≤ Settings.longestTimeout) :
    Opens settings m
      (loading .started settings.maxMsgsPerBatch (.ok m.leftover) ::
        loading .unstarted settings.maxMsgsPerBatch (.ok m.unstarted) :: clockRead m.now ::
        (moves (m.expired settings) .errored ++ (moves (m.undecodable settings) .errored ++
          (asked ++ moves m.unsignableIds .errored))))

theorem Opens.exists_grant {m : Makeup} {es : List (Event interface)} (h : Opens settings m es) {batch : SenderBatch}
    (hbatch : batch ∈ m.batches) :
    ∃ reply, asking batch.msgs.sender reply ∈ es ∧ reply.outcome = .ok (.ok batch.signer) := by
  obtain ⟨asks⟩ := h
  obtain ⟨reply, hasked, houtcome⟩ := asks.exists_grant hbatch
  refine ⟨reply, ?_, houtcome⟩
  simp [hasked]

theorem Opens.exists_refusal {m : Makeup} {es : List (Event interface)} (h : Opens settings m es) {g : SenderMsgs}
    (hg : g ∈ m.unsignable) : ∃ reply e, asking g.sender reply ∈ es ∧ reply.outcome = .ok (.error e) := by
  obtain ⟨asks⟩ := h
  obtain ⟨reply, e, hasked, houtcome⟩ := asks.exists_refusal hg
  refine ⟨reply, e, ?_, houtcome⟩
  simp [hasked]

/-! ## Plans -/

/-- Who sends what, and at which price. -/
structure Plan where
  batches : List SenderBatch
  gasPrice : DecCoin

/-- All that a batch does before it sends anything. There is no plan when there is nothing to send. -/
def prepare (settings : Settings) : Action (Option Plan) := do
  let leftover ← load .started settings.maxMsgsPerBatch
  let unstarted ← load .unstarted settings.maxMsgsPerBatch
  if leftover.isEmpty ∧ unstarted.isEmpty then return none
  let now ← Attempt.ofDialogue now
  if Settings.longestTimeout < settings.msgTimeout then
    throw (.config
      "invalid tx_msg_timeout: Source duration value is out of range for the target type")
  let pending ← sortOut settings now (leftover ++ unstarted)
  let (batches, unsignable) ← Attempt.ofDialogue (assignSigners (bySender pending))
  updateAny unsignable .errored
  if batches.isEmpty then return none
  updateAny (starting batches) .started
  let gasPrice ← priceOfToken settings
  return some ⟨batches, gasPrice⟩

def carryOut (settings : Settings) : Option Plan → Action Unit
  | none => return
  | some plan => .ofDialogue (Dialogue.all (plan.batches.map (sendLogged settings plan.gasPrice)))

/-- A batch is prepared and then carried out. -/
theorem sendMsgBatch_eq (settings : Settings) :
    sendMsgBatch settings = prepare settings >>= carryOut settings := by
  unfold sendMsgBatch prepare
  rw [bind_assoc]
  refine bind_congr fun leftover => ?_
  rw [bind_assoc]
  refine bind_congr fun unstarted => ?_
  split_ifs
  · rfl
  · rfl
  rw [bind_assoc]
  refine bind_congr fun now => ?_
  dsimp only
  rw [bind_assoc]
  refine bind_congr fun pending => ?_
  rw [bind_assoc]
  refine bind_congr fun (batches, unsignable) => ?_
  dsimp only
  rw [bind_assoc]
  refine bind_congr fun _ => ?_
  split_ifs
  · rfl
  · unfold sendBatches
    simp only [bind_assoc, pure_bind]
    rfl

/-- A batch ends with its preparation, or carries out the plan that it has made. -/
theorem cases_of_sendMsgBatch {r : Except Crash (Except Error Unit)} (h : (sendMsgBatch settings).Takes t r) :
    (∃ o, (prepare settings).Takes t o ∧ ∀ plan, o ≠ .ok (.ok (some plan))) ∨
      ∃ plan u v o, t = u ++ v ∧ (prepare settings).Takes u (.ok (.ok (some plan))) ∧
        (Dialogue.all (plan.batches.map (sendLogged settings plan.gasPrice))).Takes v o := by
  rw [sendMsgBatch_eq] at h
  rcases Attempt.takes_bind.1 h with ⟨failure, hf, _⟩ | ⟨_ | plan, u, v, rfl, hu, hv⟩
  · exact .inl ⟨_, hf, fun plan hr => by cases failure <;> cases hr⟩
  · obtain ⟨rfl, _⟩ := hv
    rw [List.append_nil]
    exact .inl ⟨_, hu, nofun⟩
  · obtain ⟨o, hall, _⟩ := Attempt.takes_ofDialogue.1 hv
    exact .inr ⟨plan, u, v, o, rfl, hu, hall⟩

/-! ## Courses -/

def takenIn (settings : Settings) (i : Intake) : List (Event interface) :=
  [loading .started settings.maxMsgsPerBatch (.ok i.leftover),
    loading .unstarted settings.maxMsgsPerBatch (.ok i.unstarted), clockRead i.now]

/-- The course of a preparation: every way in which it is given up, and the one that leads to a plan. -/
inductive Prepares (settings : Settings) :
    List (Event interface) → Except Crash (Except Error (Option Plan)) → Prop
  | unloaded {e : Error} :
    Prepares settings [loading .started settings.maxMsgsPerBatch (.error e)] (.ok (.error e))
  | halfLoaded {leftover : List Row} {e : Error} :
    Prepares settings [loading .started settings.maxMsgsPerBatch (.ok leftover),
      loading .unstarted settings.maxMsgsPerBatch (.error e)] (.ok (.error e))
  | idle :
    Prepares settings [loading .started settings.maxMsgsPerBatch (.ok []),
      loading .unstarted settings.maxMsgsPerBatch (.ok [])] (.ok (.ok none))
  | untimely {i : Intake} {e : Error} (tooLong : Settings.longestTimeout < settings.msgTimeout) :
    Prepares settings (takenIn settings i) (.ok (.error e))
  | notExpired {i : Intake} {e : Error} :
    Prepares settings (takenIn settings i ++ [moving (i.expired settings) .errored (.error e)])
      (.ok (.error e))
  | notDropped {i : Intake} {e : Error} :
    Prepares settings (takenIn settings i ++ (moves (i.expired settings) .errored ++
      [moving (i.undecodable settings) .errored (.error e)])) (.ok (.error e))
  | notAsked {i : Intake} {asked : List (Event interface)} {c : Crash}
    (asked_eq : ∀ e ∈ asked, ∃ sender reply, e = asking sender reply)
    (crashed : ∃ sender reply, asking sender reply ∈ asked ∧ reply.outcome = .error c) :
    Prepares settings (takenIn settings i ++ (moves (i.expired settings) .errored ++
      (moves (i.undecodable settings) .errored ++ asked))) (.error c)
  | notMarked {m : Makeup} {asked : List (Event interface)} {e : Error}
    (asks : Asks (bySender (m.pending settings)) asked m.batches m.unsignable) :
    Prepares settings (takenIn settings m.toIntake ++ (moves (m.expired settings) .errored ++
      (moves (m.undecodable settings) .errored ++
        (asked ++ [moving m.unsignableIds .errored (.error e)])))) (.ok (.error e))
  | noBatches {m : Makeup} {es : List (Event interface)} (opens : Opens settings m es)
    (nobody : m.batches = []) : Prepares settings es (.ok (.ok none))
  | notStarted {m : Makeup} {es : List (Event interface)} {e : Error} (opens : Opens settings m es) :
    Prepares settings (es ++ [moving (starting m.batches) .started (.error e)]) (.ok (.error e))
  | unpriced {m : Makeup} {es : List (Event interface)} {toPrices : Reply Prices} {failure : Failure}
    (opens : Opens settings m es)
    (missing : ∀ prices, toPrices.outcome = .ok (.ok prices) → prices.find? settings.gasToken = none) :
    Prepares settings (es ++ (moves (starting m.batches) .started ++ [pricing toPrices])) failure.result
  | planned {m : Makeup} {es : List (Event interface)} {toPrices : Reply Prices} {prices : Prices}
    {estimated : DecCoin} (opens : Opens settings m es) (prices_eq : toPrices.outcome = .ok (.ok prices))
    (found : prices.find? settings.gasToken = some estimated) :
    Prepares settings (es ++ (moves (starting m.batches) .started ++ [pricing toPrices]))
      (.ok (.ok (some ⟨m.batches, (cappedPrice settings estimated).1⟩)))

/-- What leads to a plan. -/
theorem Prepares.exists_makeup {es : List (Event interface)} {plan : Plan}
    (h : Prepares settings es (.ok (.ok (some plan)))) : ∃ m opening toPrices prices estimated,
      Opens settings m opening ∧ toPrices.outcome = .ok (.ok prices) ∧
        prices.find? settings.gasToken = some estimated ∧
        es = opening ++ (moves (starting m.batches) .started ++ [pricing toPrices]) ∧
        plan = ⟨m.batches, (cappedPrice settings estimated).1⟩ := by
  generalize hr : (.ok (.ok (some plan)) : Except Crash (Except Error (Option Plan))) = r at h
  cases h with
  | @unpriced _ _ _ failure => cases failure <;> cases hr
  | planned opens prices_eq found =>
    cases hr
    exact ⟨_, _, _, _, _, opens, prices_eq, found, rfl, rfl⟩
  | unloaded | halfLoaded | idle | untimely | notExpired | notDropped | notAsked | notMarked | noBatches
    | notStarted => cases hr

theorem takes_updateAny {ids : List MsgId} {state : MsgState} {r : Except Crash (Except Error Unit)}
    (h : (updateAny ids state).Takes t r) :
    (r = .ok (.ok ()) ∧ deeds t = moves ids state) ∨
      ∃ e, r = .ok (.error e) ∧ deeds t = [moving ids state (.error e)] := by
  unfold updateAny at h
  unfold moves
  split at h
  · next hempty =>
    obtain ⟨rfl, rfl⟩ := h
    rw [if_pos hempty]
    exact .inl ⟨rfl, rfl⟩
  · next hsome =>
    obtain ⟨a | a, hdeeds, rfl⟩ := takes_update h
    · exact .inr ⟨a, rfl, hdeeds⟩
    · rw [if_neg hsome]
      exact .inl ⟨rfl, hdeeds⟩

theorem takes_updateAny_bind {α : Type} {ids : List MsgId} {state : MsgState} {x : Action α}
    {r : Except Crash (Except Error α)} (h : (updateAny ids state >>= fun _ => x).Takes t r) :
    (∃ e, r = .ok (.error e) ∧ deeds t = [moving ids state (.error e)]) ∨
      ∃ u, deeds t = moves ids state ++ deeds u ∧ x.Takes u r := by
  rcases Attempt.takes_bind.1 h with ⟨failure, hf, rfl⟩ | ⟨_, u, v, rfl, hu, hv⟩
  · rcases takes_updateAny hf with ⟨hr, _⟩ | ⟨e, hr, hdeeds⟩
    · cases failure <;> cases hr
    · cases failure with
      | crash c => cases hr
      | error e' =>
        cases hr
        exact .inl ⟨e, rfl, hdeeds⟩
  · rcases takes_updateAny hu with ⟨_, hdeeds⟩ | ⟨e, hr, _⟩
    · exact .inr ⟨v, by rw [deeds_append, hdeeds], hv⟩
    · cases hr

theorem takes_assignSigners {gs : List SenderMsgs} {r : Except Crash (List SenderBatch × List MsgId)}
    (h : (assignSigners gs).Takes t r) :
    (∃ c, r = .error c ∧ (∀ e ∈ deeds t, ∃ sender reply, e = asking sender reply) ∧
      ∃ sender reply, asking sender reply ∈ deeds t ∧ reply.outcome = .error c) ∨
      ∃ batches unsignable, r = .ok (batches, unsignable.flatMap SenderMsgs.ids) ∧
        Asks gs (deeds t) batches unsignable := by
  induction gs generalizing t r with
  | nil =>
    obtain ⟨rfl, rfl⟩ := h
    exact .inr ⟨[], [], rfl, .done⟩
  | cons msgs gs ih =>
    unfold assignSigners at h
    rcases Dialogue.takes_monad_bind.1 h with ⟨c, hc, rfl⟩ | ⟨outcome, u, v, rfl, hu, hv⟩
    · obtain ⟨reply, rfl, hcrash⟩ := takes_signerOf.1 hc
      exact .inl ⟨c, rfl, List.forall_mem_singleton.2 ⟨_, reply, rfl⟩, _, reply, List.mem_singleton_self _,
        hcrash.symm⟩
    obtain ⟨reply, rfl, houtcome⟩ := takes_signerOf.1 hu
    have hfirst : ∃ sender reply', asking msgs.sender reply = asking sender reply' := ⟨_, reply, rfl⟩
    cases outcome with
    | ok signer =>
      rcases Dialogue.takes_monad_bind.1 hv with ⟨c, hc, rfl⟩ | ⟨⟨batches, ids⟩, w, x, rfl, hw, rfl, rfl⟩
      · rcases ih hc with ⟨_, hr, hasked, sender, reply', hmem, hcrash⟩ | ⟨_, _, hr, _⟩
        · cases hr
          exact .inl ⟨c, rfl, List.forall_mem_cons.2 ⟨hfirst, hasked⟩, sender, reply', .tail _ hmem, hcrash⟩
        · cases hr
      · rcases ih hw with ⟨_, hr, _⟩ | ⟨batches', unsignable, hr, hasks⟩
        · cases hr
        · cases hr
          rw [List.append_nil]
          exact .inr ⟨⟨msgs, signer⟩ :: batches, unsignable, rfl, .given houtcome.symm hasks⟩
    | error e =>
      rcases Dialogue.takes_monad_bind.1 hv with ⟨c, hc, _⟩ | ⟨_, w, x, rfl, hw, hx⟩
      · cases (takes_log hc).2
      have hdeeds : deeds ([asking msgs.sender reply] ++ (w ++ x)) = asking msgs.sender reply :: deeds x := by
        rw [deeds_append, deeds_append, (takes_log hw).1]
        rfl
      rw [hdeeds]
      rcases Dialogue.takes_monad_bind.1 hx with ⟨c, hc, rfl⟩ | ⟨⟨batches, ids⟩, y, z, rfl, hy, rfl, rfl⟩
      · rcases ih hc with ⟨_, hr, hasked, sender, reply', hmem, hcrash⟩ | ⟨_, _, hr, _⟩
        · cases hr
          exact .inl ⟨c, rfl, List.forall_mem_cons.2 ⟨hfirst, hasked⟩, sender, reply', .tail _ hmem, hcrash⟩
        · cases hr
      · rcases ih hy with ⟨_, hr, _⟩ | ⟨batches', unsignable, hr, hasks⟩
        · cases hr
        · cases hr
          rw [List.append_nil]
          exact .inr ⟨batches, msgs :: unsignable, rfl, .refused houtcome.symm hasks⟩

/-- What is found about the loaded messages decides which of them are errored. -/
theorem takes_sortOut {i : Intake} {r : Except Crash (Except Error (List Pending))}
    (h : (sortOut settings i.now i.loaded).Takes t r) :
    (∃ e, r = .ok (.error e) ∧ (deeds t = [moving (i.expired settings) .errored (.error e)] ∨
      deeds t = moves (i.expired settings) .errored ++
        [moving (i.undecodable settings) .errored (.error e)])) ∨
      r = .ok (.ok (i.pending settings)) ∧
        deeds t = moves (i.expired settings) .errored ++ moves (i.undecodable settings) .errored := by
  unfold sortOut at h
  dsimp only at h
  obtain ⟨u, hu, h⟩ := takes_logAll_bind h
  rw [hu]
  obtain ⟨v, hv, h⟩ : ∃ v, deeds u = deeds v ∧ Attempt.Takes (do
      updateAny (i.expired settings) .errored
      updateAny (i.undecodable settings) .errored
      return i.pending settings) v r := by
    split at h
    · exact takes_log_bind h
    · exact ⟨u, rfl, h⟩
  rw [hv]
  rcases takes_updateAny_bind h with ⟨e, rfl, hdeeds⟩ | ⟨w, hw, h⟩
  · exact .inl ⟨e, rfl, .inl hdeeds⟩
  rw [hw]
  rcases takes_updateAny_bind h with ⟨e, rfl, hdeeds⟩ | ⟨x, hx, rfl, rfl⟩
  · rw [hdeeds]
    exact .inl ⟨e, rfl, .inr rfl⟩
  · rw [hx]
    exact .inr ⟨rfl, congrArg _ (List.append_nil _)⟩

theorem takes_priceOfToken {r : Except Crash (Except Error DecCoin)}
    (h : (priceOfToken settings).Takes t r) : ∃ toPrices, deeds t = [pricing toPrices] ∧
      ((∃ failure : Failure, r = failure.result ∧
          ∀ prices, toPrices.outcome = .ok (.ok prices) → prices.find? settings.gasToken = none) ∨
        ∃ prices estimated, toPrices.outcome = .ok (.ok prices) ∧
          prices.find? settings.gasToken = some estimated ∧
          r = .ok (.ok (cappedPrice settings estimated).1)) := by
  unfold priceOfToken at h
  rcases Attempt.takes_bind.1 h with ⟨failure, hf, rfl⟩ | ⟨prices, u, v, rfl, hu, hv⟩
  · obtain ⟨toPrices, rfl, hr⟩ := takes_currentPrices.1 hf
    refine ⟨toPrices, rfl, .inl ⟨failure, rfl, fun prices hprices => ?_⟩⟩
    rw [← hr] at hprices
    cases failure <;> cases hprices
  obtain ⟨toPrices, rfl, hr⟩ := takes_currentPrices.1 hu
  split at hv
  · next hnone =>
    obtain ⟨rfl, rfl⟩ := hv
    refine ⟨toPrices, rfl, .inl ⟨.error _, rfl, fun prices' hprices => ?_⟩⟩
    cases hr.trans hprices
    exact hnone
  · next estimated hsome =>
    obtain ⟨w, hw, rfl, rfl⟩ := takes_logAll_bind hv
    refine ⟨toPrices, ?_, .inr ⟨prices, estimated, hr.symm, hsome, rfl⟩⟩
    rw [deeds_append, hw]
    rfl

theorem prepares_of_opened {m : Makeup} {es : List (Event interface)} (hopens : Opens settings m es)
    {r : Except Crash (Except Error (Option Plan))} (h : Attempt.Takes (do
      updateAny (starting m.batches) .started
      let gasPrice ← priceOfToken settings
      return some ⟨m.batches, gasPrice⟩) t r) : Prepares settings (es ++ deeds t) r := by
  rcases takes_updateAny_bind h with ⟨e, rfl, hdeeds⟩ | ⟨u, hu, h⟩
  · rw [hdeeds]
    exact .notStarted hopens
  rw [hu]
  rcases Attempt.takes_bind.1 h with ⟨failure, hf, rfl⟩ | ⟨gasPrice, v, w, rfl, hv, rfl, rfl⟩
  · obtain ⟨toPrices, hdeeds, ⟨_, _, hmissing⟩ | ⟨_, _, _, _, hr⟩⟩ := takes_priceOfToken hf
    · rw [hdeeds]
      exact .unpriced hopens hmissing
    · cases failure <;> cases hr
  · obtain ⟨toPrices, hdeeds, ⟨failure, hr, _⟩ | ⟨prices, estimated, hprices, hfound, hr⟩⟩ :=
      takes_priceOfToken hv
    · cases failure <;> cases hr
    · cases hr
      rw [List.append_nil, hdeeds]
      exact .planned hopens hprices hfound

/-- The course once messages are loaded and the time is known. -/
theorem prepares_of_taken {i : Intake} {r : Except Crash (Except Error (Option Plan))}
    (htimely : settings.msgTimeout ≤ Settings.longestTimeout) (h : Attempt.Takes (do
      let pending ← sortOut settings i.now i.loaded
      let (batches, unsignable) ← Attempt.ofDialogue (assignSigners (bySender pending))
      updateAny unsignable .errored
      if batches.isEmpty then return none
      updateAny (starting batches) .started
      let gasPrice ← priceOfToken settings
      return some ⟨batches, gasPrice⟩) t r) : Prepares settings (takenIn settings i ++ deeds t) r := by
  rcases Attempt.takes_bind.1 h with ⟨failure, hf, rfl⟩ | ⟨pending, u, v, rfl, hsorted, h⟩
  · rcases takes_sortOut hf with ⟨e, hr, hdeeds⟩ | ⟨hr, _⟩
    · cases failure <;> cases hr
      rcases hdeeds with hdeeds | hdeeds <;> rw [hdeeds]
      · exact .notExpired
      · exact .notDropped
    · cases failure <;> cases hr
  rcases takes_sortOut hsorted with ⟨e, he, _⟩ | ⟨hr, herrored⟩
  · cases he
  cases hr
  rw [deeds_append, herrored, List.append_assoc]
  rcases Attempt.takes_ofDialogue_bind.1 h with ⟨c, hc, rfl⟩ | ⟨_, w, x, rfl, hsigners, h⟩
  · rcases takes_assignSigners hc with ⟨_, hr, hasked, hcrashed⟩ | ⟨_, _, hr, _⟩
    · cases hr
      exact .notAsked hasked hcrashed
    · cases hr
  rcases takes_assignSigners hsigners with ⟨_, hr, _⟩ | ⟨batches, unsignable, hr, hasks⟩
  · cases hr
  cases hr
  rw [deeds_append]
  let m : Makeup := ⟨i, batches, unsignable⟩
  have hopens : Opens settings m _ := .opened hasks htimely
  rcases takes_updateAny_bind h with ⟨e, rfl, hdeeds⟩ | ⟨y, hy, h⟩
  · rw [hdeeds]
    exact .notMarked (m := m) hasks
  rw [hy]
  split at h
  · next hempty =>
    obtain ⟨rfl, rfl⟩ := h
    have hend := Prepares.noBatches hopens (List.isEmpty_iff.1 hempty)
    rwa [← List.append_nil (moves m.unsignableIds .errored)] at hend
  · have hend := prepares_of_opened hopens h
    simp only [List.cons_append, List.append_assoc] at hend
    exact hend

theorem takes_prepare {r : Except Crash (Except Error (Option Plan))}
    (h : (prepare settings).Takes t r) : Prepares settings (deeds t) r := by
  unfold prepare at h
  rcases Attempt.takes_bind.1 h with ⟨failure, hf, rfl⟩ | ⟨leftover, u₁, t₁, rfl, h₁, rest₁⟩
  · obtain ⟨a, hdeeds, ha⟩ := takes_load hf
    rw [hdeeds]
    cases failure <;> cases ha
    exact .unloaded
  obtain ⟨a₁, hload₁, ha₁⟩ := takes_load h₁
  cases ha₁
  rw [deeds_append, hload₁]
  rcases Attempt.takes_bind.1 rest₁ with ⟨failure, hf, rfl⟩ | ⟨unstarted, u₂, t₂, rfl, h₂, rest₂⟩
  · obtain ⟨a, hdeeds, ha⟩ := takes_load hf
    rw [hdeeds]
    cases failure <;> cases ha
    exact .halfLoaded
  obtain ⟨a₂, hload₂, ha₂⟩ := takes_load h₂
  cases ha₂
  rw [deeds_append, hload₂]
  split at rest₂
  · next hidle =>
    obtain ⟨rfl, rfl⟩ := rest₂
    rw [List.isEmpty_iff.1 hidle.1, List.isEmpty_iff.1 hidle.2]
    exact .idle
  rcases Attempt.takes_ofDialogue_bind.1 rest₂ with ⟨c, hc, _⟩ | ⟨now, u₃, t₃, rfl, h₃, rest₃⟩
  · obtain ⟨_, _, hnow⟩ := takes_ask.1 hc
    cases hnow
  obtain ⟨now', rfl, hnow⟩ := takes_ask.1 h₃
  cases hnow
  split at rest₃
  · next htooLong =>
    obtain ⟨rfl, rfl⟩ := rest₃
    exact .untimely (i := ⟨leftover, unstarted, now⟩) htooLong
  · next htimely =>
    exact prepares_of_taken (i := ⟨leftover, unstarted, now⟩) (Nat.not_lt.1 htimely) rest₃

/-! ## Events -/

/-- What a batch does before it asks for prices. -/
inductive Groundwork : Event interface → Prop
  | loading {state : MsgState} {limit : Int} {a : Except Error (List Row)} : Groundwork (loading state limit a)
  | clockRead {now : Int} : Groundwork (clockRead now)
  | moving {ids : List MsgId} {state : MsgState} {a : Except Error Unit} : Groundwork (moving ids state a)
  | asking {sender : String} {reply : Reply Signer} : Groundwork (asking sender reply)

theorem groundwork_moves {ids : List MsgId} {state : MsgState} : ∀ e ∈ moves ids state, Groundwork e :=
  forall_mem_moves .moving

theorem groundwork_takenIn {i : Intake} : ∀ e ∈ takenIn settings i, Groundwork e := by
  simp only [takenIn, List.forall_mem_cons]
  exact ⟨.loading, .loading, .clockRead, List.forall_mem_nil _⟩

theorem groundwork_asked {asked : List (Event interface)}
    (h : ∀ e ∈ asked, ∃ sender reply, e = asking sender reply) : ∀ e ∈ asked, Groundwork e := by
  intro e he
  obtain ⟨_, _, rfl⟩ := h e he
  exact .asking

theorem Opens.groundwork {m : Makeup} {es : List (Event interface)} (h : Opens settings m es) :
    ∀ e ∈ es, Groundwork e := by
  obtain ⟨asks⟩ := h
  simp only [List.forall_mem_cons, List.forall_mem_append]
  exact ⟨.loading, .loading, .clockRead, groundwork_moves, groundwork_moves, groundwork_asked asks.eq_asking,
    groundwork_moves⟩

/-- A preparation is given up before prices are asked for, or ends with them. -/
theorem Prepares.cases_of_prices {es : List (Event interface)} {r : Except Crash (Except Error (Option Plan))}
    (h : Prepares settings es r) : (∀ e ∈ es, Groundwork e) ∨
      ∃ m opening toPrices, Opens settings m opening ∧
        es = opening ++ (moves (starting m.batches) .started ++ [pricing toPrices]) ∧
        ((∃ plan prices, r = .ok (.ok (some plan)) ∧ toPrices.outcome = .ok (.ok prices) ∧
            (prices.find? settings.gasToken).isSome = true) ∨
          ∀ prices, toPrices.outcome = .ok (.ok prices) → prices.find? settings.gasToken = none) := by
  cases h with
  | unloaded => exact .inl (List.forall_mem_singleton.2 .loading)
  | halfLoaded | idle => exact .inl (List.forall_mem_cons.2 ⟨.loading, List.forall_mem_singleton.2 .loading⟩)
  | untimely => exact .inl groundwork_takenIn
  | notExpired =>
    exact .inl (List.forall_mem_append.2 ⟨groundwork_takenIn, List.forall_mem_singleton.2 .moving⟩)
  | notDropped =>
    simp only [List.forall_mem_append]
    exact .inl ⟨groundwork_takenIn, groundwork_moves, List.forall_mem_singleton.2 .moving⟩
  | notAsked asked_eq =>
    simp only [List.forall_mem_append]
    exact .inl ⟨groundwork_takenIn, groundwork_moves, groundwork_moves, groundwork_asked asked_eq⟩
  | notMarked asks =>
    simp only [List.forall_mem_append]
    exact .inl ⟨groundwork_takenIn, groundwork_moves, groundwork_moves, groundwork_asked asks.eq_asking,
      List.forall_mem_singleton.2 .moving⟩
  | noBatches opens => exact .inl opens.groundwork
  | notStarted opens =>
    exact .inl (List.forall_mem_append.2 ⟨opens.groundwork, List.forall_mem_singleton.2 .moving⟩)
  | unpriced opens missing => exact .inr ⟨_, _, _, opens, rfl, .inr missing⟩
  | planned opens prices_eq found =>
    exact .inr ⟨_, _, _, opens, rfl, .inl ⟨_, _, rfl, prices_eq, Option.isSome_iff_exists.2 ⟨_, found⟩⟩⟩

theorem Prepares.groundwork {es : List (Event interface)} {r : Except Crash (Except Error (Option Plan))}
    (h : Prepares settings es r) : (∀ e ∈ es, Groundwork e) ∨
      ∃ fs toPrices, es = fs ++ [pricing toPrices] ∧ (∀ e ∈ fs, Groundwork e) ∧
        ((∃ plan, r = .ok (.ok (some plan))) ∨
          ∀ prices, toPrices.outcome = .ok (.ok prices) → prices.find? settings.gasToken = none) := by
  rcases h.cases_of_prices with hgroundwork | ⟨m, opening, toPrices, hopens, rfl, hend⟩
  · exact .inl hgroundwork
  · refine .inr ⟨opening ++ moves (starting m.batches) .started, toPrices, (List.append_assoc ..).symm,
      List.forall_mem_append.2 ⟨hopens.groundwork, groundwork_moves⟩, ?_⟩
    rcases hend with ⟨plan, _, hplan, _⟩ | hmissing
    · exact .inl ⟨plan, hplan⟩
    · exact .inr hmissing

end ReportRelay.Dispatch
