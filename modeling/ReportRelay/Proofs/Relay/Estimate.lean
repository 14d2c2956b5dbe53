import ReportRelay.Proofs.Dialogue.Answering
import ReportRelay.Proofs.Dispatch.Pricing
import ReportRelay.Proofs.GasPrice.Keyed
import ReportRelay.Relay

/-!
# What the relay makes of an estimate

Of all that the dispatcher asks, only a question about prices reaches the estimator, and only a call for a signed
transaction is signed.
-/

namespace ReportRelay.Relay

open Dialogue

variable {α : Type} {memory later : Memory} {t u : List (Event interface)}

/-! ## What is signed -/

/-- The transaction that the client is to sign. -/
def signed? : Event interface → Option UnsignedTx
  | ⟨.client _ (.createAndSign tx _), _⟩ => some tx
  | _ => none

def signings (t : List (Event interface)) : List UnsignedTx :=
  t.filterMap signed?

theorem mem_signings {tx : UnsignedTx} : tx ∈ signings t ↔ ∃ e ∈ t, signed? e = some tx :=
  List.mem_filterMap

/-- The question is no call for a signed transaction. -/
def Unsigned (question : interface.Question) : Prop :=
  ∀ behalf tx signer, question ≠ Question.client behalf (.createAndSign tx signer)

theorem not_unsigned_of_signed? {e : Event interface} {tx : UnsignedTx} (h : signed? e = some tx) :
    ¬Unsigned e.question := by
  intro hunsigned
  obtain ⟨question, a⟩ := e
  cases question with
  | client behalf call =>
    cases call with
    | createAndSign tx signer => exact hunsigned behalf tx signer rfl
    | account | simulateEach | simulate | latestBlock | broadcast | lookUp => cases h
  | keystore | quote | now | turn | store | storeAll | log => cases h

theorem nonempty_signature (bytes : signing.Question) : Nonempty (signing.Answer bytes) :=
  ⟨(⟨0, .error .unnamed⟩ : Reply Bytes)⟩

theorem unsigned_onKeyring (action : Keyring.Action α) (memory : Memory) :
    (onKeyring action memory).AsksOnly Unsigned := by
  apply AsksOnly.bind
  · apply AsksOnly.through
    intro question
    exact .question nofun
  · intro outcome
    exact .done _

theorem unsigned_sign (signer : Signer) (client : Dialogue signing (Reply Bytes)) (memory : Memory) :
    (sign signer client memory).AsksOnly Unsigned := by
  apply AsksOnly.bind
  · exact AsksOnly.answering nonempty_signature (fun bytes memory => unsigned_onKeyring (signer.sign bytes) memory) memory
  · rintro ⟨c | reply, memory⟩ <;> exact .done _

theorem unsigned_estimate (memory : Memory) : (estimate memory).AsksOnly Unsigned := by
  apply AsksOnly.bind
  · apply AsksOnly.guarded
    apply AsksOnly.through
    intro question
    cases question <;> exact .question nofun
  · rintro (c | e | ⟨prices, estimator⟩) <;> exact .done _

/-- What is asked for the sake of a question and signs a transaction is the call for it. -/
theorem signed_of_answer {question : Dispatch.Question} {r : Except Crash (question.Answer × Memory)}
    (h : (answer question memory).Takes u r) (a : question.Answer) {tx : UnsignedTx} (htx : tx ∈ signings u) :
    Dispatch.signed? ⟨question, a⟩ = some tx := by
  obtain ⟨e, he, hsigned⟩ := mem_signings.1 htx
  have hnone (hunsigned : (answer question memory).AsksOnly Unsigned) :
      Dispatch.signed? ⟨question, a⟩ = some tx :=
    absurd (hunsigned u r h e he) (not_unsigned_of_signed? hsigned)
  cases question with
  | client behalf call =>
    cases call with
    | createAndSign tx' signer =>
      rcases takes_bind.1 h with ⟨c, hc, _⟩ | ⟨client, v, w, rfl, hv, hw⟩
      · obtain ⟨_, _, hcrash⟩ := takes_question.1 hc
        cases hcrash
      obtain ⟨_, rfl, _⟩ := takes_question.1 hv
      rcases List.mem_cons.1 he with rfl | he
      · exact hsigned
      · exact absurd (unsigned_sign signer client memory w r hw e he) (not_unsigned_of_signed? hsigned)
    | account | simulateEach | simulate | latestBlock | broadcast | lookUp =>
      exact hnone (AsksOnly.bind (.question nofun) fun _ => .done _)
  | signer sender => exact hnone (unsigned_onKeyring (Keyring.signer sender) memory)
  | prices => exact hnone (unsigned_estimate memory)
  | now | turn | store | storeAll | log => exact hnone (AsksOnly.bind (.question nofun) fun _ => .done _)

/-! ## What becomes of the estimator -/

theorem estimator_of_onKeyring {action : Keyring.Action α} {reply : Reply α}
    (h : (onKeyring action memory).Takes t (.ok (reply, later))) : later.estimator = memory.estimator := by
  obtain ⟨outcome, u, v, rfl, hu, hv⟩ := takes_monad_bind_ok.1 h
  cases hv.2
  rfl

theorem estimator_of_sign {signer : Signer} {client : Dialogue signing (Reply Bytes)} {reply : Reply Bytes}
    (h : (sign signer client memory).Takes t (.ok (reply, later))) : later.estimator = memory.estimator := by
  obtain ⟨⟨outcome, signed⟩, u, v, rfl, hu, hv⟩ := takes_monad_bind_ok.1 h
  have hsigned : signed = later := by
    cases outcome <;> cases hv.2 <;> rfl
  obtain ⟨es, last, henacts, _, hend⟩ := takes_answering nonempty_signature hu
  obtain rfl : signed = last := hend _ rfl
  rw [← hsigned]
  apply henacts.invariant (fun m => m.estimator = memory.estimator) _ rfl
  intro e _ w _ before after hw hbefore
  exact (estimator_of_onKeyring hw).trans hbefore

theorem estimator_of_callClient {behalf : Dispatch.Behalf} {call : ClientCall} {reply : Reply call.Result}
    (h : (callClient behalf memory call).Takes t (.ok (reply, later))) : later.estimator = memory.estimator := by
  cases call with
  | createAndSign tx signer =>
    obtain ⟨client, u, v, rfl, _, hv⟩ := takes_monad_bind_ok.1 h
    exact estimator_of_sign hv
  | account | simulateEach | simulate | latestBlock | broadcast | lookUp =>
    obtain ⟨_, u, v, rfl, _, hv⟩ := takes_monad_bind_ok.1 h
    cases hv.2
    rfl

theorem estimator_of_answer {question : Dispatch.Question} {a : question.Answer} (hquestion : question ≠ .prices)
    (h : (answer question memory).Takes t (.ok (a, later))) : later.estimator = memory.estimator := by
  cases question with
  | client behalf call => exact estimator_of_callClient h
  | signer sender => exact estimator_of_onKeyring h
  | prices => exact absurd rfl hquestion
  | now | turn | store | storeAll | log =>
    obtain ⟨_, u, v, rfl, _, hv⟩ := takes_monad_bind_ok.1 h
    cases hv.2
    rfl

/-! ## Estimates -/

/-- What the relay asks, where the estimator asks its sources. -/
def sourced : Event priceSources → Event interface
  | ⟨.quote source, reply⟩ => ⟨.quote source, reply⟩
  | ⟨.log line, said⟩ => ⟨.log line, said⟩

theorem takes_askSources {p : Dialogue priceSources α} {r : Except Crash α} (h : (askSources p).Takes t r) :
    ∃ u, t = u.map sourced ∧ p.Takes u r := by
  induction p generalizing t with
  | done | crash =>
    obtain ⟨rfl, hr⟩ := h
    exact ⟨[], rfl, rfl, hr⟩
  | wait idle nanos k ih => exact ih () h
  | ask question k ih =>
    cases question with
    | quote source =>
      obtain ⟨reply, v, rfl, hv⟩ := h
      obtain ⟨w, rfl, hw⟩ := ih reply hv
      exact ⟨(⟨.quote source, reply⟩ : Event priceSources) :: w, rfl, reply, w, rfl, hw⟩
    | log line =>
      obtain ⟨said, v, rfl, hv⟩ := h
      obtain ⟨w, rfl, hw⟩ := ih said hv
      exact ⟨(⟨.log line, said⟩ : Event priceSources) :: w, rfl, said, w, rfl, hw⟩

/-- An estimate succeeds as the estimator does, and is otherwise forgotten. -/
theorem takes_estimate {reply : Reply Prices} (h : (estimate memory).Takes t (.ok (reply, later))) :
    (∃ quotes prices estimator, t = quotes.map sourced ∧
      memory.estimator.prices.Takes quotes (.ok (.ok (prices, estimator))) ∧
      reply = .ok prices ∧ later = { memory with estimator }) ∨
    (∀ prices, reply.outcome ≠ .ok (.ok prices)) ∧ later = memory := by
  obtain ⟨outcome, u, v, rfl, hu, hv⟩ := takes_monad_bind_ok.1 h
  obtain ⟨o, ho, hr⟩ := takes_guarded.1 hu
  cases hr
  match outcome, hv with
  | .ok (.ok (prices, estimator)), hv =>
    obtain ⟨rfl, hr⟩ := hv
    cases hr
    obtain ⟨quotes, rfl, hquotes⟩ := takes_askSources ho
    exact .inl ⟨quotes, prices, estimator, List.append_nil _, hquotes, rfl, rfl⟩
  | .ok (.error e), hv =>
    cases hv.2
    exact .inr ⟨nofun, rfl⟩
  | .error c, hv =>
    cases hv.2
    exact .inr ⟨nofun, rfl⟩

end ReportRelay.Relay
