import ReportRelay.Proofs.Contract.History
import ReportRelay.Proofs.Contract.Reading
import ReportRelay.Proofs.Dialogue.Interleaving

/-!
# The two sides of a refresh

What each side of a refresh asks, and when it comes to its end. The sides go on beside one another, but neither asks or
changes anything that the other one asks or changes.
-/

namespace ReportRelay.Contract.Cache

open Dialogue

variable {α : Type} {address : String} {block start finish : Nat} {t : List (Dated interface)}

theorem nonempty_answer (question : interface.Question) : Nonempty (interface.Answer question) := by
  match question with
  | .chain (.state _ _) => exact ⟨(⟨0, .error .unnamed⟩ : Reply Bytes)⟩
  | .chain (.search _) => exact ⟨(⟨0, .error .unnamed⟩ : Reply (List TxResponse))⟩
  | .chain .latestBlock => exact ⟨(⟨0, .error .unnamed⟩ : Reply Nat)⟩
  | .chain (.log _) => exact ⟨()⟩
  | .now => exact ⟨(0 : Nat)⟩
  | .renew _ => exact ⟨false⟩
  | .putConfig _ _ | .putTransmission _ => exact ⟨()⟩

/-! ## What is asked of the chain -/

def asked (m : Dated client) : Dated interface :=
  ⟨m.time, .chain m.event.question, m.event.answer⟩

def detailsAsked (address : String) (time : Nat) (reply : Reply Bytes) : Dated interface :=
  ⟨time, .chain (stateOf address "latest_config_details"), reply⟩

def searched (address : String) (block time : Nat) (reply : Reply (List TxResponse)) : Dated interface :=
  ⟨time, .chain (.search (setConfigConditions address block)), reply⟩

theorem lasts_through {p : Dialogue client α} {r : Except Crash α} :
    (p.through fun question => ask (.chain question)).Lasts start t finish r ↔
      ∃ u, t = u.map asked ∧ p.Lasts start u finish r := by
  induction p generalizing start t with
  | done | crash =>
    constructor
    · rintro ⟨rfl, hend⟩
      exact ⟨[], rfl, rfl, hend⟩
    · rintro ⟨_, rfl, rfl, hend⟩
      exact ⟨rfl, hend⟩
  | wait idle nanos k ih => exact ih ()
  | ask question k ih =>
    constructor
    · rintro ⟨a, u, rfl, hu⟩
      obtain ⟨v, rfl, hv⟩ := (ih a).1 hu
      exact ⟨⟨start, question, a⟩ :: v, rfl, a, v, rfl, hv⟩
    · rintro ⟨_, rfl, a, v, rfl, hv⟩
      exact ⟨a, v.map asked, rfl, (ih a).2 ⟨v, rfl, hv⟩⟩

theorem lasts_reading {action : Contract.Action α} {r : Except Crash (Except Error α)} :
    (reading action).Lasts start t finish r ↔ ∃ u, t = u.map asked ∧ action.Lasts start u finish r :=
  lasts_through

theorem asksOnly_reading {P : interface.Question → Prop} {action : Contract.Action α}
    (h : ∀ question, P (.chain question)) : (reading action).outcome.AsksOnly P :=
  AsksOnly.through fun question => .question (h question)

/-! ## The side of the configuration -/

/-- What is asked where a configuration is fetched. -/
inductive FetchCourse (address : String) (block start : Nat) :
    List (Dated interface) → Nat → Except Crash (Except Error Unit) → Prop
  | unfound {reply : Reply (List TxResponse)} {failure : Failure}
    (said : reply.comesTo (configIn address block) = failure.result) :
    FetchCourse address block start [searched address block start reply] (start + reply.nanos) failure.result
  | found {reply : Reply (List TxResponse)} {config : ContractConfig}
    (said : reply.comesTo (configIn address block) = .ok (.ok config)) :
    FetchCourse address block start
      [searched address block start reply, ⟨start + reply.nanos, .putConfig block config, ()⟩]
      (start + reply.nanos) (.ok (.ok ()))

/-- What is asked where the configuration is updated. -/
inductive ConfigCourse (address : String) (start : Nat) :
    List (Dated interface) → Nat → Except Crash (Except Error Unit) → Prop
  | unread {reply : Reply Bytes} {failure : Failure} (said : reply.comesTo detailsIn = failure.result) :
    ConfigCourse address start [detailsAsked address start reply] (start + reply.nanos) failure.result
  | current {reply : Reply Bytes} {details : ConfigDetails} (said : reply.comesTo detailsIn = .ok (.ok details)) :
    ConfigCourse address start
      [detailsAsked address start reply, ⟨start + reply.nanos, .renew details, true⟩] (start + reply.nanos)
      (.ok (.ok ()))
  | outdated {reply : Reply Bytes} {details : ConfigDetails} {t : List (Dated interface)} {finish : Nat}
    {r : Except Crash (Except Error Unit)} (said : reply.comesTo detailsIn = .ok (.ok details))
    (fetched : FetchCourse address details.block (start + reply.nanos) t finish r) :
    ConfigCourse address start
      (detailsAsked address start reply :: ⟨start + reply.nanos, .renew details, false⟩ :: t) finish r

/-- Fetches the configuration of a block, whatever the cache holds. -/
def fetch (address : String) (block : Nat) : Action Unit := do
  let config ← reading (Contract.config address block)
  .ofDialogue (ask (.putConfig block config))

theorem lasts_ofDialogue_ask {question : Question} {r : Except Crash (Except Error question.Answer)} :
    (Attempt.ofDialogue (ask question)).Lasts start t finish r ↔
      ∃ a, t = [⟨start, question, a⟩] ∧ finish = start ∧ r = .ok (.ok a) := by
  constructor
  · rintro ⟨a, _, rfl, rfl, rfl, rfl⟩
    exact ⟨a, rfl, rfl, rfl⟩
  · rintro ⟨a, rfl, rfl, rfl⟩
    exact ⟨a, [], rfl, rfl, rfl, rfl⟩

theorem fetchCourse_of_lasts {r : Except Crash (Except Error Unit)} (h : (fetch address block).Lasts start t finish r) :
    FetchCourse address block start t finish r := by
  rcases Attempt.lasts_bind.1 h with ⟨failure, hread, rfl⟩ | ⟨config, _, v, middle, rfl, hread, hput⟩
  · obtain ⟨_, rfl, hconfig⟩ := lasts_reading.1 hread
    obtain ⟨reply, rfl, rfl, hsaid⟩ := lasts_config.1 hconfig
    exact .unfound hsaid.symm
  · obtain ⟨_, rfl, hconfig⟩ := lasts_reading.1 hread
    obtain ⟨reply, rfl, rfl, hsaid⟩ := lasts_config.1 hconfig
    obtain ⟨_, rfl, rfl, rfl⟩ := lasts_ofDialogue_ask.1 hput
    exact .found hsaid.symm

theorem configCourse_of_lasts {r : Except Crash (Except Error Unit)}
    (h : (updateConfig address).Lasts start t finish r) : ConfigCourse address start t finish r := by
  rcases Attempt.lasts_bind.1 h with ⟨failure, hread, rfl⟩ | ⟨details, _, v, middle, rfl, hread, hrest⟩
  · obtain ⟨_, rfl, hdetails⟩ := lasts_reading.1 hread
    obtain ⟨reply, rfl, rfl, hsaid⟩ := lasts_configDetails.1 hdetails
    exact .unread hsaid.symm
  · obtain ⟨_, rfl, hdetails⟩ := lasts_reading.1 hread
    obtain ⟨reply, rfl, rfl, hsaid⟩ := lasts_configDetails.1 hdetails
    rcases Attempt.lasts_bind.1 hrest with ⟨failure, hrenew, rfl⟩ | ⟨isCurrent, _, w, later, rfl, hrenew, hfetch⟩
    · obtain ⟨_, _, _, hfailure⟩ := lasts_ofDialogue_ask.1 hrenew
      cases failure <;> cases hfailure
    · obtain ⟨_, rfl, rfl, hanswer⟩ := lasts_ofDialogue_ask.1 hrenew
      cases hanswer
      cases isCurrent with
      | true =>
        obtain ⟨rfl, rfl, rfl⟩ := hfetch
        exact .current hsaid.symm
      | false => exact .outdated hsaid.symm (fetchCourse_of_lasts hfetch)

/-! ## The side of the transmission -/

/-- What is asked where the transmission is updated. -/
inductive TransmissionCourse (address : String) (start : Nat) :
    List (Dated interface) → Nat → Except Crash (Except Error Unit) → Prop
  | unread {u : List (Dated client)} {finish : Nat} {failure : Failure}
    (read : (Contract.transmission address).Lasts start u finish failure.result) :
    TransmissionCourse address start (u.map asked) finish failure.result
  | read {u : List (Dated client)} {finish : Nat} {transmission : Transmission}
    (read : (Contract.transmission address).Lasts start u finish (.ok (.ok transmission))) :
    TransmissionCourse address start (u.map asked ++ [⟨finish, .putTransmission transmission, ()⟩]) finish
      (.ok (.ok ()))

theorem transmissionCourse_of_lasts {r : Except Crash (Except Error Unit)}
    (h : (updateTransmission address).Lasts start t finish r) : TransmissionCourse address start t finish r := by
  rcases Attempt.lasts_bind.1 h with ⟨failure, hread, rfl⟩ | ⟨transmission, _, v, middle, rfl, hread, hput⟩
  · obtain ⟨u, rfl, hu⟩ := lasts_reading.1 hread
    exact .unread hu
  · obtain ⟨u, rfl, hu⟩ := lasts_reading.1 hread
    obtain ⟨_, rfl, rfl, rfl⟩ := lasts_ofDialogue_ask.1 hput
    exact .read hu

end ReportRelay.Contract.Cache
