import ReportRelay.Contract.State
import ReportRelay.Proofs.Dialogue.Clock
import ReportRelay.Proofs.Except

/-!
# What is read of a contract

A reading asks one question, or two where there is no transmission yet, and what comes of it is told by the replies.
-/

namespace ReportRelay

/-- What comes of a reply of which the value still has to be made sense of. -/
def Reply.comesTo {α β : Type} (reply : Reply α) (sense : α → Except Error β) : Except Crash (Except Error β) :=
  reply.outcome.map fun result => result >>= sense

theorem Reply.comesTo_congr {α β : Type} {reply reply' : Reply α} {sense : α → Except Error β}
    (h : reply.outcome = reply'.outcome) : reply.comesTo sense = reply'.comesTo sense := by
  rw [comesTo, comesTo, h]

theorem Reply.eq_of_comesTo {α β : Type} {reply reply' : Reply α} {sense : α → Except Error β}
    {b b' : Except Error β} (h : reply.outcome = reply'.outcome) (said : reply.comesTo sense = .ok b)
    (said' : reply'.comesTo sense = .ok b') : b = b' := by
  rw [comesTo_congr h] at said
  exact Except.ok.inj (said.symm.trans said')

theorem Reply.comesTo_eq_ok_iff {α β : Type} {reply : Reply α} {sense : α → Except Error β} {b : β} :
    reply.comesTo sense = .ok (.ok b) ↔ ∃ a, reply.outcome = .ok (.ok a) ∧ sense a = .ok b := by
  unfold Reply.comesTo
  rw [map_eq_ok_iff]
  constructor
  · rintro ⟨result, hresult, hsense⟩
    obtain ⟨a, rfl, ha⟩ := bind_eq_ok_iff.1 hsense
    exact ⟨a, hresult, ha⟩
  · rintro ⟨a, ha, hsense⟩
    exact ⟨.ok a, ha, hsense⟩

theorem Reply.comesTo_eq_error {α β : Type} {reply : Reply α} {sense : α → Except Error β} {e : Error}
    (h : reply.comesTo sense = .ok (.error e)) :
    reply.outcome = .ok (.error e) ∨ ∃ a, reply.outcome = .ok (.ok a) ∧ sense a = .error e := by
  unfold Reply.comesTo at h
  obtain ⟨result, hresult, hsense⟩ := map_eq_ok_iff.1 h
  cases result with
  | error e' =>
    cases hsense
    exact .inl hresult
  | ok a => exact .inr ⟨a, hresult, hsense⟩

namespace Attempt

variable {S : Interface} {α β : Type} {start finish : Nat} {t : List (Dated S)}

/-- One question that is answered by a reply, of which the value is then made sense of. -/
theorem lasts_ofReply_bind {p : Dialogue S (Reply α)} {f : α → Attempt S β} {asked : Reply α → Event S}
    {sense : α → Except Error β} {r : Except Crash (Except Error β)}
    (hp : ∀ {t finish} {o : Except Crash (Reply α)}, p.Lasts start t finish o ↔
      ∃ reply, t = [⟨start, asked reply⟩] ∧ finish = start ∧ o = .ok reply)
    (hf : ∀ a, (f a).outcome = .done (sense a)) :
    (ofReply p >>= f).Lasts start t finish r ↔
      ∃ reply, t = [⟨start, asked reply⟩] ∧ finish = start + reply.nanos ∧ r = reply.comesTo sense := by
  have hreply (reply : Reply α) {t : List (Dated S)} :
      (reply.receive.bind (ExceptT.bindCont f)).Lasts start t finish r ↔
        t = [] ∧ finish = start + reply.nanos ∧ r = reply.comesTo sense := by
    rw [Dialogue.lasts_bind]
    simp only [lasts_receive, Reply.comesTo]
    match reply.outcome with
    | .error c =>
      constructor
      · rintro (⟨_, ⟨rfl, rfl, hc⟩, rfl⟩ | ⟨_, _, _, _, _, ⟨_, _, hc⟩, _⟩) <;> cases hc
        exact ⟨rfl, rfl, rfl⟩
      · rintro ⟨rfl, rfl, rfl⟩
        exact .inl ⟨c, ⟨rfl, rfl, rfl⟩, rfl⟩
    | .ok (.error e) =>
      constructor
      · rintro (⟨_, ⟨_, _, hc⟩, _⟩ | ⟨_, _, _, _, rfl, ⟨rfl, rfl, hc⟩, hend⟩) <;> cases hc
        exact hend
      · rintro ⟨rfl, rfl, rfl⟩
        exact .inr ⟨.error e, [], [], _, rfl, ⟨rfl, rfl, rfl⟩, rfl, rfl, rfl⟩
    | .ok (.ok a) =>
      have hsense : ExceptT.bindCont f (.ok a) = .done (sense a) := hf a
      constructor
      · rintro (⟨_, ⟨_, _, hc⟩, _⟩ | ⟨_, _, _, _, rfl, ⟨rfl, rfl, hc⟩, hend⟩) <;> cases hc
        rw [hsense] at hend
        exact hend
      · rintro ⟨rfl, rfl, rfl⟩
        refine .inr ⟨.ok a, [], [], _, rfl, ⟨rfl, rfl, rfl⟩, ?_⟩
        rw [hsense]
        exact ⟨rfl, rfl, rfl⟩
  have hflat : (ofReply p >>= f).Lasts start t finish r ↔
      ((p.bind Reply.receive).bind (ExceptT.bindCont f)).Lasts start t finish r := Iff.rfl
  rw [hflat, Dialogue.bind_assoc, Dialogue.lasts_bind]
  simp only [hp]
  constructor
  · rintro (⟨_, ⟨_, _, _, hc⟩, _⟩ | ⟨reply, _, _, _, rfl, ⟨_, rfl, rfl, ho⟩, hrest⟩)
    · cases hc
    · cases ho
      obtain ⟨rfl, hfinish, hr⟩ := (hreply reply).1 hrest
      exact ⟨reply, rfl, hfinish, hr⟩
  · rintro ⟨reply, rfl, hfinish, hr⟩
    exact .inr ⟨reply, _, [], start, rfl, ⟨reply, rfl, rfl, rfl⟩, (hreply reply).2 ⟨rfl, hfinish, hr⟩⟩

end Attempt

namespace Contract

open Dialogue

variable {α : Type} {address : String} {start finish : Nat} {t : List (Dated client)}

/-- The question for a piece of the contract's state. -/
def stateOf (address name : String) : Question :=
  .state address (Bytes.ofText (Json.quoted name))

def decoded (name : String) (reader : Json.Reader α) (response : Bytes) : Except Error α :=
  match Json.read reader response with
  | .ok a => .ok a
  | .error fault => .error (.codec s!"failed to decode {name} response: {fault.message}")

theorem lasts_query {name : String} {reader : Json.Reader α} {r : Except Crash (Except Error α)} :
    (query address name reader).Lasts start t finish r ↔
      ∃ reply : Reply Bytes, t = [⟨start, stateOf address name, reply⟩] ∧ finish = start + reply.nanos ∧
        r = reply.comesTo (decoded name reader) := by
  refine Attempt.lasts_ofReply_bind lasts_question fun response => ?_
  unfold decoded
  cases Json.read reader response <;> rfl

/-! ## The configuration -/

def detailsIn : Bytes → Except Error ConfigDetails :=
  decoded "latest_config_details" ConfigDetails.reader

theorem lasts_configDetails {r : Except Crash (Except Error ConfigDetails)} :
    (configDetails address).Lasts start t finish r ↔
      ∃ reply : Reply Bytes, t = [⟨start, stateOf address "latest_config_details", reply⟩] ∧
        finish = start + reply.nanos ∧ r = reply.comesTo detailsIn :=
  lasts_query

/-- The configuration that the transactions of a block announce. -/
def configIn (address : String) (block : Nat) (txs : List TxResponse) : Except Error ContractConfig := do
  let event ← announcement block (setConfigConditions address block) txs
  let (config, _) ← ContractConfig.ofAttributes event.attributes
  return config

theorem lasts_config {block : Nat} {r : Except Crash (Except Error ContractConfig)} :
    (config address block).Lasts start t finish r ↔
      ∃ reply : Reply (List TxResponse), t = [⟨start, .search (setConfigConditions address block), reply⟩] ∧
        finish = start + reply.nanos ∧ r = reply.comesTo (configIn address block) := by
  refine Attempt.lasts_ofReply_bind lasts_question fun txs => ?_
  unfold configIn
  cases announcement block (setConfigConditions address block) txs with
  | error e => rfl
  | ok event =>
    change (Attempt.ofResult (ContractConfig.ofAttributes event.attributes) >>= fun read => pure read.1).outcome =
      .done (ContractConfig.ofAttributes event.attributes >>= fun read => pure read.1)
    cases ContractConfig.ofAttributes event.attributes <;> rfl

/-! ## The latest transmission -/

def recordIn : Bytes → Except Error TransmissionRecord :=
  decoded "latest_transmission_details" TransmissionRecord.reader

def digestAndEpochIn : Bytes → Except Error DigestAndEpoch :=
  decoded "latest_config_digest_and_epoch" DigestAndEpoch.reader

/-- How a transmission is read: it is recorded, or there is none and the epoch is asked for instead. -/
inductive TransmissionRead (address : String) (start : Nat) : List (Dated client) → Nat → Transmission → Prop
  | recorded {reply : Reply Bytes} {record : TransmissionRecord} {transmission : Transmission}
    (said : reply.comesTo recordIn = .ok (.ok record)) (made : record.transmission = .ok transmission) :
    TransmissionRead address start [⟨start, stateOf address "latest_transmission_details", reply⟩]
      (start + reply.nanos) transmission
  | untransmitted {first second : Reply Bytes} {e : Error} {current : DigestAndEpoch} {logs : List (Dated client)}
    (said : first.comesTo recordIn = .ok (.error e)) (missing : saysNoTransmission e = true)
    (epoch : second.comesTo digestAndEpochIn = .ok (.ok current))
    (logged : ∀ m ∈ logs, ∃ line, m.event.question = .log line) :
    TransmissionRead address start
      (⟨start, stateOf address "latest_transmission_details", first⟩ ::
        ⟨start + first.nanos, stateOf address "latest_config_digest_and_epoch", second⟩ :: logs)
      (start + first.nanos + second.nanos) ⟨current.digest, current.epoch, 0, 0, 0⟩

theorem lasts_logError_bind {text : String} {f : Unit → Action α} {r : Except Crash (Except Error α)} :
    (logError text >>= f).Lasts start t finish r ↔
      ∃ u, t = ⟨start, .log (.error text), ()⟩ :: u ∧ (f ()).Lasts start u finish r := by
  constructor
  · intro h
    rcases Attempt.lasts_ofDialogue_bind.1 h with ⟨_, hlog, _⟩ | ⟨_, _, u, _, rfl, hlog, hf⟩
    · obtain ⟨_, _, _, hc⟩ := lasts_question.1 hlog
      cases hc
    · obtain ⟨_, rfl, rfl, _⟩ := lasts_question.1 hlog
      exact ⟨u, rfl, hf⟩
  · rintro ⟨u, rfl, hf⟩
    exact Attempt.lasts_ofDialogue_bind.2 (.inr ⟨(), _, u, start, rfl, lasts_question.2 ⟨(), rfl, rfl, rfl⟩, hf⟩)

theorem transmissionRead_of_lasts {transmission : Transmission}
    (h : (Contract.transmission address).Lasts start t finish (.ok (.ok transmission))) :
    TransmissionRead address start t finish transmission := by
  rcases Attempt.lasts_ofDialogue_bind.1 h with ⟨_, _, hc⟩ | ⟨e | record, _, v, middle, rfl, hasked, hrest⟩
  · cases hc
  · obtain ⟨first, rfl, rfl, hfirst⟩ := lasts_query.1 hasked
    change (if saysNoTransmission e then untransmitted address e else throw e).Lasts _ _ _ _ at hrest
    split at hrest
    next hmissing =>
      rcases Attempt.lasts_ofDialogue_bind.1 hrest with ⟨_, _, hc⟩ | ⟨e' | current, _, w, later, rfl, hsecond, hend⟩
      · cases hc
      · obtain ⟨u, rfl, _, _, hthrown⟩ := lasts_logError_bind.1 hend
        cases hthrown
      · obtain ⟨second, rfl, rfl, hepoch⟩ := lasts_query.1 hsecond
        dsimp only at hend
        split at hend
        next =>
          obtain ⟨u, rfl, rfl, rfl, hread⟩ := lasts_logError_bind.1 hend
          cases hread
          exact .untransmitted hfirst.symm hmissing hepoch.symm (List.forall_mem_singleton.2 ⟨_, rfl⟩)
        next =>
          obtain ⟨rfl, rfl, hread⟩ := hend
          cases hread
          exact .untransmitted hfirst.symm hmissing hepoch.symm (List.forall_mem_nil _)
    next => cases hrest.2.2
  · obtain ⟨reply, rfl, rfl, hreply⟩ := lasts_query.1 hasked
    obtain ⟨rfl, rfl, hmade⟩ := hrest
    exact .recorded hreply.symm (Except.ok.inj hmade).symm

end Contract

end ReportRelay
