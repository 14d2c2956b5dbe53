import ReportRelay.Proofs.Dispatch.ConfirmCourse

/-!
# Courses of one sender's batch

Simulating, signing, broadcasting and confirming happen in this order, and the first step that fails ends the
course. Up to the signed transaction nothing is broadcast; from the broadcast on, every way out moves the
messages on or errors them.
-/

namespace ReportRelay.Dispatch

variable {t : List (Event interface)} {settings : Settings} {gasPrice : DecCoin}
  {batch : SenderBatch}

namespace SenderBatch

def behalf (batch : SenderBatch) : Behalf :=
  ⟨batch.msgs.sender, batch.msgs.ids⟩

def simMsgs (batch : SenderBatch) : List SimMsg :=
  batch.msgs.msgs.map fun p => ⟨p.id, p.message⟩

def messages (batch : SenderBatch) : List Message :=
  batch.msgs.msgs.map Pending.message

def unsignedTx (batch : SenderBatch) (settings : Settings) (gasPrice : DecCoin) (account : Account)
    (gasUsed height : Nat) : UnsignedTx where
  messages := batch.messages
  accountNumber := account.number
  sequence := account.sequence
  gasLimit := gasUsed
  gasLimitMultiplier := settings.gasLimitMultiplier
  gasPrice := gasPrice
  timeoutHeight := settings.timeoutHeight height

end SenderBatch

/-- A step that failed errors the messages; one that crashed does not come to it. -/
inductive Abandons (ids : List MsgId) :
    Failure → List (Event interface) → Except Crash (Except Error Unit) → Prop
  | crashed {c : Crash} : Abandons ids (.crash c) [] (.error c)
  | failed {e : Error} {a : Except Error Unit} :
    Abandons ids (.error e) [moving ids .errored a] (.ok a)

/-- The messages that failed the simulation are errored, and then those that did not. -/
inductive Cancels (failed cancelled : List MsgId) :
    List (Event interface) → Except Crash (Except Error Unit) → Prop
  | stuck {e : Error} : Cancels failed cancelled [moving failed .errored (.error e)] (.ok (.error e))
  | alone (none : cancelled = []) :
    Cancels failed cancelled [moving failed .errored (.ok ())] (.ok (.ok ()))
  | both {a : Except Error Unit} (some : cancelled ≠ []) :
    Cancels failed cancelled [moving failed .errored (.ok ()), moving cancelled .errored a] (.ok a)

/-- The calls that lead to a signed transaction. -/
inductive Signs (settings : Settings) (gasPrice : DecCoin) (batch : SenderBatch) :
    List (Event interface) → UnsignedTx → Bytes → Prop
  | signed {account : Account} {simulation : Simulation} {gasUsed height : Nat} {bytes : Bytes}
    {toAccount : Reply Account} {toSimulateEach : Reply Simulation} {toSimulate toLatestBlock : Reply Nat}
    {toSign : Reply Bytes}
    (account_eq : toAccount.outcome = .ok (.ok account))
    (simulation_eq : toSimulateEach.outcome = .ok (.ok simulation))
    (succeeded : ∀ id ∈ batch.msgs.ids, id ∈ simulation.succeeded.map SimMsg.id)
    (gasUsed_eq : toSimulate.outcome = .ok (.ok gasUsed))
    (height_eq : toLatestBlock.outcome = .ok (.ok height))
    (bytes_eq : toSign.outcome = .ok (.ok bytes)) :
    Signs settings gasPrice batch
      [called batch.behalf (.account batch.msgs.sender) toAccount,
        called batch.behalf (.simulateEach batch.simMsgs account.sequence) toSimulateEach,
        called batch.behalf (.simulate batch.messages account.sequence) toSimulate,
        called batch.behalf .latestBlock toLatestBlock,
        called batch.behalf
          (.createAndSign (batch.unsignedTx settings gasPrice account gasUsed height) batch.signer)
          toSign]
      (batch.unsignedTx settings gasPrice account gasUsed height) bytes

/-- The courses that end before anything is broadcast. -/
inductive Unsent (settings : Settings) (gasPrice : DecCoin) (batch : SenderBatch) :
    List (Event interface) → Except Crash (Except Error Unit) → Prop
  | noAccount {toAccount : Reply Account} {failure : Failure}
    (failed : toAccount.outcome = failure.result) :
    Unsent settings gasPrice batch
      [called batch.behalf (.account batch.msgs.sender) toAccount] failure.result
  | notSimulated {account : Account} {toAccount : Reply Account} {toSimulateEach : Reply Simulation}
    {failure : Failure}
    (account_eq : toAccount.outcome = .ok (.ok account))
    (failed : toSimulateEach.outcome = failure.result) :
    Unsent settings gasPrice batch
      [called batch.behalf (.account batch.msgs.sender) toAccount,
        called batch.behalf (.simulateEach batch.simMsgs account.sequence) toSimulateEach]
      failure.result
  | cancelled {account : Account} {simulation : Simulation} {toAccount : Reply Account}
    {toSimulateEach : Reply Simulation} {es : List (Event interface)}
    {r : Except Crash (Except Error Unit)}
    (account_eq : toAccount.outcome = .ok (.ok account))
    (simulation_eq : toSimulateEach.outcome = .ok (.ok simulation))
    (missing : ∃ id ∈ batch.msgs.ids, id ∉ simulation.succeeded.map SimMsg.id)
    (cancels : Cancels
      (batch.msgs.ids.filter fun id => id ∉ simulation.succeeded.map SimMsg.id)
      (batch.msgs.ids.filter fun id => id ∈ simulation.succeeded.map SimMsg.id) es r) :
    Unsent settings gasPrice batch
      (called batch.behalf (.account batch.msgs.sender) toAccount ::
        called batch.behalf (.simulateEach batch.simMsgs account.sequence) toSimulateEach :: es) r
  | notEstimated {account : Account} {simulation : Simulation} {toAccount : Reply Account}
    {toSimulateEach : Reply Simulation} {toSimulate : Reply Nat} {failure : Failure}
    {es : List (Event interface)} {r : Except Crash (Except Error Unit)}
    (account_eq : toAccount.outcome = .ok (.ok account))
    (simulation_eq : toSimulateEach.outcome = .ok (.ok simulation))
    (succeeded : ∀ id ∈ batch.msgs.ids, id ∈ simulation.succeeded.map SimMsg.id)
    (failed : toSimulate.outcome = failure.result)
    (abandons : Abandons batch.msgs.ids failure es r) :
    Unsent settings gasPrice batch
      (called batch.behalf (.account batch.msgs.sender) toAccount ::
        called batch.behalf (.simulateEach batch.simMsgs account.sequence) toSimulateEach ::
        called batch.behalf (.simulate batch.messages account.sequence) toSimulate :: es) r
  | noHeight {account : Account} {simulation : Simulation} {gasUsed : Nat} {toAccount : Reply Account}
    {toSimulateEach : Reply Simulation} {toSimulate toLatestBlock : Reply Nat} {failure : Failure}
    (account_eq : toAccount.outcome = .ok (.ok account))
    (simulation_eq : toSimulateEach.outcome = .ok (.ok simulation))
    (succeeded : ∀ id ∈ batch.msgs.ids, id ∈ simulation.succeeded.map SimMsg.id)
    (gasUsed_eq : toSimulate.outcome = .ok (.ok gasUsed))
    (failed : toLatestBlock.outcome = failure.result) :
    Unsent settings gasPrice batch
      [called batch.behalf (.account batch.msgs.sender) toAccount,
        called batch.behalf (.simulateEach batch.simMsgs account.sequence) toSimulateEach,
        called batch.behalf (.simulate batch.messages account.sequence) toSimulate,
        called batch.behalf .latestBlock toLatestBlock] failure.result
  | notSigned {account : Account} {simulation : Simulation} {gasUsed height : Nat}
    {toAccount : Reply Account} {toSimulateEach : Reply Simulation}
    {toSimulate toLatestBlock : Reply Nat} {toSign : Reply Bytes} {failure : Failure}
    {es : List (Event interface)} {r : Except Crash (Except Error Unit)}
    (account_eq : toAccount.outcome = .ok (.ok account))
    (simulation_eq : toSimulateEach.outcome = .ok (.ok simulation))
    (succeeded : ∀ id ∈ batch.msgs.ids, id ∈ simulation.succeeded.map SimMsg.id)
    (gasUsed_eq : toSimulate.outcome = .ok (.ok gasUsed))
    (height_eq : toLatestBlock.outcome = .ok (.ok height))
    (failed : toSign.outcome = failure.result)
    (abandons : Abandons batch.msgs.ids failure es r) :
    Unsent settings gasPrice batch
      (called batch.behalf (.account batch.msgs.sender) toAccount ::
        called batch.behalf (.simulateEach batch.simMsgs account.sequence) toSimulateEach ::
        called batch.behalf (.simulate batch.messages account.sequence) toSimulate ::
        called batch.behalf .latestBlock toLatestBlock ::
        called batch.behalf
          (.createAndSign (batch.unsignedTx settings gasPrice account gasUsed height) batch.signer)
          toSign :: es) r

/-- The broadcast of a signed transaction: it is sent once, and recorded when the chain accepts it. -/
inductive Broadcasts (behalf : Behalf) (tx : Bytes) :
    List (Event interface) → Except Crash (Except Error String) → Prop
  | failed {reply : Reply BroadcastResponse} {failure : Failure}
    (failed : reply.outcome = failure.result) :
    Broadcasts behalf tx [called behalf (.broadcast tx) reply] failure.result
  | rejected {reply : Reply BroadcastResponse} {response : BroadcastResponse} {e : Error}
    (response_eq : reply.outcome = .ok (.ok response)) (code : response.code ≠ 0) :
    Broadcasts behalf tx [called behalf (.broadcast tx) reply] (.ok (.error e))
  | unrecorded {reply : Reply BroadcastResponse} {response : BroadcastResponse} {e : Error}
    (response_eq : reply.outcome = .ok (.ok response)) (code : response.code = 0) :
    Broadcasts behalf tx [called behalf (.broadcast tx) reply,
      movingAll behalf.ids .broadcasted response.txHash (.error e)] (.ok (.error e))
  | recorded {reply : Reply BroadcastResponse} {response : BroadcastResponse}
    (response_eq : reply.outcome = .ok (.ok response)) (code : response.code = 0) :
    Broadcasts behalf tx [called behalf (.broadcast tx) reply,
      movingAll behalf.ids .broadcasted response.txHash (.ok ())] (.ok (.ok response.txHash))

inductive SenderCourse (settings : Settings) (gasPrice : DecCoin) (batch : SenderBatch) :
    List (Event interface) → Except Crash (Except Error Unit) → Prop
  | unsent {es : List (Event interface)} {r : Except Crash (Except Error Unit)}
    (unsent : Unsent settings gasPrice batch es r) : SenderCourse settings gasPrice batch es r
  | refused {es fs gs : List (Event interface)} {tx : UnsignedTx} {bytes : Bytes} {failure : Failure}
    {r : Except Crash (Except Error Unit)} (signs : Signs settings gasPrice batch es tx bytes)
    (broadcasts : Broadcasts batch.behalf bytes fs failure.result)
    (abandons : Abandons batch.msgs.ids failure gs r) :
    SenderCourse settings gasPrice batch (es ++ (fs ++ gs)) r
  | sent {es fs gs : List (Event interface)} {tx : UnsignedTx} {bytes : Bytes} {txHash : String}
    {r : Except Crash (Except Error Unit)} (signs : Signs settings gasPrice batch es tx bytes)
    (broadcasts : Broadcasts batch.behalf bytes fs (.ok (.ok txHash)))
    (confirms : ConfirmCourse settings batch.behalf txHash gs r) :
    SenderCourse settings gasPrice batch (es ++ (fs ++ gs)) r

/-! ## What the dialogues take -/

theorem takes_abandon {behalf : Behalf} {step : String} {e : Error}
    {r : Except Crash (Except Error Unit)} (h : (abandon behalf step e).Takes t r) :
    Abandons behalf.ids (.error e) (deeds t) r := by
  unfold abandon at h
  obtain ⟨u, hu, h⟩ := takes_log_bind h
  obtain ⟨a, hdeeds, rfl⟩ := takes_update h
  rw [hu, hdeeds]
  exact .failed

theorem takes_cancelBatch {behalf : Behalf} {failed cancelled : List MsgId}
    {r : Except Crash (Except Error Unit)} (h : (cancelBatch behalf failed cancelled).Takes t r) :
    Cancels failed cancelled (deeds t) r := by
  unfold cancelBatch at h
  obtain ⟨u, hu, h⟩ := takes_logAll_bind h
  rw [hu]
  rcases Attempt.takes_bind.1 h with ⟨failure, hf, rfl⟩ | ⟨_, v, w, rfl, hv, hw⟩
  · obtain ⟨a, hdeeds, ha⟩ := takes_update hf
    rw [hdeeds]
    cases failure with
    | crash c => cases ha
    | error e => cases ha; exact .stuck
  · obtain ⟨a, hdeeds, ha⟩ := takes_update hv
    cases ha
    rw [deeds_append, hdeeds]
    split at hw
    · next hsome =>
      obtain ⟨x, hx, hw⟩ := takes_log_bind hw
      obtain ⟨a, hdeeds, rfl⟩ := takes_update hw
      rw [hx, hdeeds]
      exact .both (by simpa using hsome)
    · next hnone =>
      obtain ⟨rfl, rfl⟩ := hw
      exact .alone (by simpa using hnone)

theorem takes_broadcast {behalf : Behalf} {tx : Bytes} {r : Except Crash (Except Error String)}
    (h : (broadcast behalf tx).Takes t r) : Broadcasts behalf tx (deeds t) r := by
  unfold broadcast at h
  rcases Attempt.takes_bind.1 h with ⟨failure, hf, rfl⟩ | ⟨response, u, v, rfl, hu, hv⟩
  · obtain ⟨reply, rfl, hr⟩ := takes_call.1 hf
    exact .failed hr.symm
  · obtain ⟨reply, rfl, hr⟩ := takes_call.1 hu
    split at hv
    · next hcode =>
      rcases Attempt.takes_bind.1 hv with ⟨failure, hf, rfl⟩ | ⟨_, v, w, rfl, hv, hw⟩
      · obtain ⟨a, hdeeds, ha⟩ := takes_updateAll hf
        rw [deeds_append, hdeeds]
        cases failure with
        | crash c => cases ha
        | error e => cases ha; exact .unrecorded hr.symm hcode
      · obtain ⟨a, hdeeds, ha⟩ := takes_updateAll hv
        obtain ⟨rfl, rfl⟩ := hw
        cases ha
        rw [List.append_nil, deeds_append, hdeeds]
        exact .recorded hr.symm hcode
    · next hcode =>
      obtain ⟨rfl, rfl⟩ := hv
      exact .rejected hr.symm hcode

theorem takes_sendBatchOf {r : Except Crash (Except Error Unit)}
    (h : (sendBatchOf settings gasPrice batch).Takes t r) :
    SenderCourse settings gasPrice batch (deeds t) r := by
  unfold sendBatchOf at h
  rcases Attempt.takes_bind.1 h with ⟨failure, hf, rfl⟩ | ⟨account, _, t₁, rfl, h₁, rest₁⟩
  · obtain ⟨toAccount, rfl, hr⟩ := takes_call.1 hf
    exact .unsent (.noAccount hr.symm)
  obtain ⟨toAccount, rfl, haccount⟩ := takes_call.1 h₁
  rcases Attempt.takes_bind.1 rest₁ with ⟨failure, hf, rfl⟩ | ⟨simulation, _, t₂, rfl, h₂, rest₂⟩
  · obtain ⟨toSimulateEach, rfl, hr⟩ := takes_call.1 hf
    exact .unsent (.notSimulated haccount.symm hr.symm)
  obtain ⟨toSimulateEach, rfl, hsimulation⟩ := takes_call.1 h₂
  dsimp only at rest₂
  split at rest₂
  · next hfailed =>
    refine .unsent (.cancelled haccount.symm hsimulation.symm ?_ (takes_cancelBatch rest₂))
    simpa using hfailed
  next hfailed =>
  have hsucceeded : ∀ id ∈ batch.msgs.ids, id ∈ simulation.succeeded.map SimMsg.id := by
    simpa using hfailed
  rcases Attempt.takes_caught_bind.1 rest₂ with ⟨c, hc, rfl⟩ | ⟨gas, _, t₃, rfl, h₃, rest₃⟩
  · obtain ⟨toSimulate, rfl, hr⟩ := takes_call.1 hc
    have hfailed : toSimulate.outcome = (Failure.crash c).result := hr.symm
    exact .unsent (.notEstimated haccount.symm hsimulation.symm hsucceeded hfailed .crashed)
  obtain ⟨toSimulate, rfl, hgas⟩ := takes_call.1 h₃
  cases gas with
  | error e =>
    have hfailed : toSimulate.outcome = (Failure.error e).result := hgas.symm
    exact .unsent (.notEstimated haccount.symm hsimulation.symm hsucceeded hfailed (takes_abandon rest₃))
  | ok gasUsed =>
  rcases Attempt.takes_bind.1 rest₃ with ⟨failure, hf, rfl⟩ | ⟨height, _, t₄, rfl, h₄, rest₄⟩
  · obtain ⟨toLatestBlock, rfl, hr⟩ := takes_call.1 hf
    exact .unsent (.noHeight haccount.symm hsimulation.symm hsucceeded hgas.symm hr.symm)
  obtain ⟨toLatestBlock, rfl, hheight⟩ := takes_call.1 h₄
  rcases Attempt.takes_caught_bind.1 rest₄ with ⟨c, hc, rfl⟩ | ⟨signed, _, t₅, rfl, h₅, rest₅⟩
  · obtain ⟨toSign, rfl, hr⟩ := takes_call.1 hc
    have hfailed : toSign.outcome = (Failure.crash c).result := hr.symm
    exact .unsent (.notSigned haccount.symm hsimulation.symm hsucceeded hgas.symm hheight.symm hfailed .crashed)
  obtain ⟨toSign, rfl, hbytes⟩ := takes_call.1 h₅
  cases signed with
  | error e =>
    have hfailed : toSign.outcome = (Failure.error e).result := hbytes.symm
    exact .unsent (.notSigned haccount.symm hsimulation.symm hsucceeded hgas.symm hheight.symm hfailed
      (takes_abandon rest₅))
  | ok bytes =>
  have hsigns : Signs settings gasPrice batch _ _ bytes :=
    .signed haccount.symm hsimulation.symm hsucceeded hgas.symm hheight.symm hbytes.symm
  rcases Attempt.takes_caught_bind.1 rest₅ with ⟨c, hc, rfl⟩ | ⟨sent, t₆, t₇, rfl, h₆, rest₆⟩
  · have hbroadcasts : Broadcasts batch.behalf bytes _ (Failure.crash c).result := takes_broadcast hc
    have hend := SenderCourse.refused hsigns hbroadcasts .crashed
    rwa [List.append_nil] at hend
  cases sent with
  | error e =>
    have hbroadcasts : Broadcasts batch.behalf bytes _ (Failure.error e).result := takes_broadcast h₆
    have hend := SenderCourse.refused hsigns hbroadcasts (takes_abandon rest₆)
    rwa [← deeds_append] at hend
  | ok txHash =>
    have hend := SenderCourse.sent hsigns (takes_broadcast h₆) (takes_confirmTx rest₆)
    rwa [← deeds_append] at hend

theorem takes_sendLogged {r : Except Crash Unit} (h : (sendLogged settings gasPrice batch).Takes t r) :
    ∃ o, SenderCourse settings gasPrice batch (deeds t) o ∧ r = o.map fun _ => () := by
  unfold sendLogged at h
  rcases Dialogue.takes_monad_bind.1 h with ⟨c, hc, rfl⟩ | ⟨outcome, u, v, rfl, hu, hv⟩
  · exact ⟨.error c, takes_sendBatchOf hc, rfl⟩
  · refine ⟨.ok outcome, ?_, ?_⟩
    · cases outcome with
      | ok =>
        obtain ⟨rfl, _⟩ := hv
        rw [List.append_nil]
        exact takes_sendBatchOf hu
      | error e =>
        rw [deeds_append, (takes_log hv).1, List.append_nil]
        exact takes_sendBatchOf hu
    · cases outcome with
      | ok => exact hv.2
      | error e => exact (takes_log hv).2

end ReportRelay.Dispatch
