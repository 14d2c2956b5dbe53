import ReportRelay.Proofs.Dialogue.Timeless
import ReportRelay.Proofs.Dispatch.Parts

/-!
# Time makes no difference to a batch

How long anybody takes to answer decides who moves next, and nothing else. The dialogues of a batch are timeless: what
they ask and how they end depends on the outcomes of replies and on what the store says.
-/

namespace ReportRelay.Dispatch

open Dialogue (Timeless.bind timeless_pass)
open Attempt (timeless_bind timeless_ofDialogue timeless_caught)

/-- The answer, as if it had come at once. -/
def Question.instant : (question : Question) → question.Answer → question.Answer
  | .client _ _, reply | .signer _, reply | .prices, reply => Reply.instant reply
  | .turn, _ => (0 : Nat)
  | .now, time => time
  | .store _, result | .storeAll .., result => result
  | .log _, said => said

/-- The dialogue does not care how long answers take. -/
abbrev Timeless {α : Type} (p : Run α) : Prop :=
  Dialogue.Timeless (S := interface) Question.instant p

/-- What is said in a course, whenever it is said. -/
def gist (t : List (Event interface)) : List (Event interface) :=
  t.map (Event.map Question.instant)

/-! ## Courses can be compared -/

deriving instance DecidableEq for Reply
deriving instance DecidableEq for Store.Statement
deriving instance DecidableEq for Question

instance (call : ClientCall) : DecidableEq call.Result :=
  match call with
  | .account _ => inferInstanceAs (DecidableEq Account)
  | .simulateEach .. => inferInstanceAs (DecidableEq Simulation)
  | .simulate .. | .latestBlock => inferInstanceAs (DecidableEq Nat)
  | .createAndSign .. => inferInstanceAs (DecidableEq Bytes)
  | .broadcast _ => inferInstanceAs (DecidableEq BroadcastResponse)
  | .lookUp _ => inferInstanceAs (DecidableEq TxResponse)

instance (statement : Store.Statement) : DecidableEq statement.Result :=
  match statement with
  | .insert .. => inferInstanceAs (DecidableEq MsgId)
  | .load .. | .find _ => inferInstanceAs (DecidableEq (List Row))
  | .update .. => inferInstanceAs (DecidableEq Unit)

instance decidableEqAnswer (question : Question) : DecidableEq question.Answer :=
  match question with
  | .client _ call => inferInstanceAs (DecidableEq (Reply call.Result))
  | .signer _ => inferInstanceAs (DecidableEq (Reply Signer))
  | .prices => inferInstanceAs (DecidableEq (Reply Prices))
  | .now => inferInstanceAs (DecidableEq Int)
  | .turn => inferInstanceAs (DecidableEq Nat)
  | .store statement => inferInstanceAs (DecidableEq (Except Error statement.Result))
  | .storeAll .. => inferInstanceAs (DecidableEq (Except Error Unit))
  | .log _ => inferInstanceAs (DecidableEq Unit)

instance : DecidableEq interface.Question :=
  inferInstanceAs (DecidableEq Question)

instance (question : interface.Question) : DecidableEq (interface.Answer question) :=
  decidableEqAnswer question

variable {α : Type} {settings : Settings}

/-! ## Steps -/

theorem timeless_log (line : LogLine) : Timeless (log line) :=
  Dialogue.timeless_question fun _ => rfl

theorem timeless_logAll (lines : List LogLine) : Timeless (logAll lines) := by
  induction lines with
  | nil => trivial
  | cons line lines ih => exact (timeless_log line).bind fun _ => ih

theorem timeless_now : Timeless now :=
  Dialogue.timeless_question fun _ => rfl

theorem timeless_turn : Timeless turn :=
  ⟨fun _ _ _ _ _ => Dialogue.takes_pass.trans Dialogue.takes_pass.symm, timeless_pass⟩

theorem timeless_execute (statement : Store.Statement) : Timeless (execute statement).outcome :=
  timeless_turn.bind fun _ => Dialogue.timeless_question fun _ => rfl

theorem timeless_load (state : MsgState) (limit : Int) : Timeless (load state limit).outcome :=
  timeless_execute _

theorem timeless_update (ids : List MsgId) (state : MsgState) : Timeless (update ids state).outcome :=
  timeless_execute _

theorem timeless_updateAll (ids : List MsgId) (state : MsgState) (txHash : String) :
    Timeless (updateAll ids state txHash).outcome :=
  timeless_turn.bind fun _ => Dialogue.timeless_question fun _ => rfl

theorem timeless_call (behalf : Behalf) (call : ClientCall) : Timeless (Dispatch.call behalf call).outcome :=
  Attempt.timeless_receive (S := interface) (Question.client behalf call) id fun _ _ => Reply.outcome_eq_of_instant

theorem timeless_signerOf (sender : String) : Timeless (signerOf sender).outcome :=
  Attempt.timeless_receive (S := interface) (Question.signer sender) id fun _ _ => Reply.outcome_eq_of_instant

theorem timeless_currentPrices : Timeless currentPrices.outcome :=
  Attempt.timeless_receive (S := interface) (Question.prices) id fun _ _ => Reply.outcome_eq_of_instant

/-! ## One sender -/

theorem timeless_retryFrom {policy : RetryPolicy} {operation : Nat → Run (Except Error α)}
    (h : ∀ attempt, Timeless (operation attempt)) (more attempt : Nat) :
    Timeless (policy.retryFrom operation more attempt) := by
  induction more generalizing attempt with
  | zero => exact h attempt
  | succ more ih =>
    refine (h attempt).bind fun outcome => ?_
    cases outcome with
    | ok => trivial
    | error => exact (timeless_pass _).bind fun _ => ih (attempt + 1)

theorem timeless_lookUp (behalf : Behalf) (txHash : String) : Timeless (lookUp settings behalf txHash) :=
  timeless_retryFrom (fun _ => timeless_call behalf (.lookUp txHash)) _ _

theorem timeless_confirmTx (behalf : Behalf) (txHash : String) :
    Timeless (confirmTx settings behalf txHash).outcome := by
  refine timeless_bind (timeless_ofDialogue (timeless_lookUp behalf txHash)) fun found => ?_
  cases found with
  | ok response =>
    dsimp only
    split
    · exact timeless_update _ _
    · exact timeless_bind (timeless_ofDialogue (timeless_log _)) fun _ => timeless_update _ _
  | error e => exact timeless_bind (timeless_ofDialogue (timeless_log _)) fun _ => timeless_update _ _

theorem timeless_abandon (behalf : Behalf) (step : String) (e : Error) : Timeless (abandon behalf step e).outcome :=
  timeless_bind (timeless_ofDialogue (timeless_log _)) fun _ => timeless_update _ _

theorem timeless_cancelBatch (behalf : Behalf) (failed cancelled : List MsgId) :
    Timeless (cancelBatch behalf failed cancelled).outcome := by
  refine timeless_bind (timeless_ofDialogue (timeless_logAll _)) fun _ => ?_
  refine timeless_bind (timeless_update _ _) fun _ => ?_
  split
  · exact timeless_bind (timeless_ofDialogue (timeless_log _)) fun _ => timeless_update _ _
  · trivial

theorem timeless_broadcast (behalf : Behalf) (tx : Bytes) : Timeless (broadcast behalf tx).outcome := by
  refine timeless_bind (timeless_call _ _) fun response => ?_
  split
  · exact timeless_bind (timeless_updateAll _ _ _) fun _ => trivial
  · trivial

theorem timeless_sendBatchOf (gasPrice : DecCoin) (batch : SenderBatch) :
    Timeless (sendBatchOf settings gasPrice batch).outcome := by
  refine timeless_bind (timeless_call _ _) fun account => ?_
  refine timeless_bind (timeless_call _ _) fun simulated => ?_
  dsimp only
  split
  · exact timeless_cancelBatch _ _ _
  refine timeless_bind (timeless_caught (timeless_call _ _)) fun gas => ?_
  cases gas with
  | error e => exact timeless_abandon _ _ e
  | ok gasUsed =>
  refine timeless_bind (timeless_call _ _) fun height => ?_
  refine timeless_bind (timeless_caught (timeless_call _ _)) fun signed => ?_
  cases signed with
  | error e => exact timeless_abandon _ _ e
  | ok signed =>
  refine timeless_bind (timeless_caught (timeless_broadcast _ _)) fun sent => ?_
  cases sent with
  | error e => exact timeless_abandon _ _ e
  | ok txHash => exact timeless_confirmTx _ txHash

theorem timeless_sendLogged (gasPrice : DecCoin) (batch : SenderBatch) :
    Timeless (sendLogged settings gasPrice batch) := by
  refine (timeless_sendBatchOf gasPrice batch).bind fun outcome => ?_
  cases outcome with
  | ok => trivial
  | error e => exact timeless_log _

/-! ## Preparation -/

theorem timeless_updateAny (ids : List MsgId) (state : MsgState) : Timeless (updateAny ids state).outcome := by
  unfold updateAny
  split
  · trivial
  · exact timeless_update _ _

theorem timeless_assignSigners (gs : List SenderMsgs) : Timeless (assignSigners gs) := by
  induction gs with
  | nil => trivial
  | cons msgs gs ih =>
    refine (timeless_signerOf msgs.sender).bind fun outcome => ?_
    cases outcome with
    | ok signer => exact ih.bind fun _ => trivial
    | error e => exact (timeless_log _).bind fun _ => ih.bind fun _ => trivial

theorem timeless_sortOut (now : Int) (rows : List Row) : Timeless (sortOut settings now rows).outcome := by
  refine timeless_bind (timeless_ofDialogue (timeless_logAll _)) fun _ => ?_
  have hmoves {expired undecodable : List MsgId} {pending : List Pending} : Timeless (Attempt.outcome (do
      updateAny expired .errored
      updateAny undecodable .errored
      return pending)) :=
    timeless_bind (timeless_updateAny _ _) fun _ => timeless_bind (timeless_updateAny _ _) fun _ => trivial
  dsimp only
  split
  · exact timeless_bind (timeless_ofDialogue (timeless_log _)) fun _ => hmoves
  · exact hmoves

theorem timeless_priceOfToken : Timeless (priceOfToken settings).outcome := by
  refine timeless_bind timeless_currentPrices fun prices => ?_
  cases prices.find? settings.gasToken with
  | none => trivial
  | some estimated => exact timeless_bind (timeless_ofDialogue (timeless_logAll _)) fun _ => trivial

theorem timeless_prepare : Timeless (prepare settings).outcome := by
  refine timeless_bind (timeless_load _ _) fun leftover => ?_
  refine timeless_bind (timeless_load _ _) fun unstarted => ?_
  dsimp only
  split
  · trivial
  refine timeless_bind (timeless_ofDialogue timeless_now) fun now => ?_
  split
  · trivial
  refine timeless_bind (timeless_sortOut _ _) fun pending => ?_
  refine timeless_bind (timeless_ofDialogue (timeless_assignSigners _)) fun (batches, unsignable) => ?_
  refine timeless_bind (timeless_updateAny _ _) fun _ => ?_
  dsimp only
  split
  · trivial
  refine timeless_bind (timeless_updateAny _ _) fun _ => ?_
  exact timeless_bind timeless_priceOfToken fun _ => trivial

end ReportRelay.Dispatch
