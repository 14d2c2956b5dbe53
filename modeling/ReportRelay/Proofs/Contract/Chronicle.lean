import Mathlib.Data.Prod.Lex
import Mathlib.Order.Monotone.Defs
import ReportRelay.Proofs.Contract.Reading
import ReportRelay.Proofs.Contract.History

/-!
# Contracts that do not go back

The block of the configuration that a contract reports, and the epoch and the round of its latest transmission, never
decrease. Answers tell what was the case at some moment between question and answer, so the smaller of two values was
asked for before the other one was answered.
-/

namespace ReportRelay.Contract.Cache

open Dialogue

variable {α : Type} {address : String}

/-! ## What becomes of a contract -/

/-- How far transmissions have come, by epoch and then by round. -/
def stageOf (transmission : Transmission) : ℕ ×ₗ ℕ :=
  toLex (transmission.epoch.toNat, transmission.round.toNat)

theorem stage_of_record {record : TransmissionRecord} {transmission : Transmission}
    (h : record.transmission = .ok transmission) :
    stageOf transmission = toLex (record.epoch.toNat, record.round.toNat) := by
  unfold TransmissionRecord.transmission at h
  split at h
  next => cases h
  next =>
    split at h
    next =>
      cases h
      rfl
    next => cases h

/-- What becomes of a contract whose reported block and whose epoch and round never decrease, and which is not without
a transmission again once it has one. -/
structure Chronicle where
  block : Nat → Nat
  stage : Nat → ℕ ×ₗ ℕ
  transmitted : Nat → Prop
  block_monotone : Monotone block
  stage_monotone : Monotone stage
  transmitted_monotone : Monotone transmitted

/-- At some moment while the answer was waited for, this was the case. -/
def Meanwhile (asked answered : Nat) (P : Nat → Prop) : Prop :=
  ∃ moment, asked ≤ moment ∧ moment ≤ answered ∧ P moment

/-- The answer tells what was the case while it was waited for. -/
structure Chronicle.Tells (chronicle : Chronicle) (address : String) (m : Dated interface) : Prop where
  details : ∀ time (reply : Reply Bytes) (details : ConfigDetails),
    m = ⟨time, .chain (stateOf address "latest_config_details"), reply⟩ →
      reply.comesTo detailsIn = .ok (.ok details) →
        Meanwhile time (time + reply.nanos) fun moment => details.block = chronicle.block moment
  recorded : ∀ time (reply : Reply Bytes) (record : TransmissionRecord),
    m = ⟨time, .chain (stateOf address "latest_transmission_details"), reply⟩ →
      reply.comesTo recordIn = .ok (.ok record) →
        Meanwhile time (time + reply.nanos) fun moment =>
          chronicle.transmitted moment ∧ toLex (record.epoch.toNat, record.round.toNat) = chronicle.stage moment
  missing : ∀ time (reply : Reply Bytes) (e : Error),
    m = ⟨time, .chain (stateOf address "latest_transmission_details"), reply⟩ →
      reply.comesTo recordIn = .ok (.error e) → saysNoTransmission e = true →
        Meanwhile time (time + reply.nanos) fun moment => ¬chronicle.transmitted moment
  epoch : ∀ time (reply : Reply Bytes) (current : DigestAndEpoch),
    m = ⟨time, .chain (stateOf address "latest_config_digest_and_epoch"), reply⟩ →
      reply.comesTo digestAndEpochIn = .ok (.ok current) →
        Meanwhile time (time + reply.nanos) fun moment => current.epoch.toNat = (ofLex (chronicle.stage moment)).1

/-! ## What was read at different times -/

/-- Values that reads may have told, where `reads asked answered` says that there was a read with these times. A value
that is smaller than another one was read, at least in part, before the other had been read. -/
structure Sampled [LT α] (seen : (Nat → Nat → Prop) → α → Prop) : Prop where
  before_of_lt : ∀ {reads reads' : Nat → Nat → Prop} {a b : α}, seen reads a → seen reads' b → a < b →
    ∃ asked answered asked' answered', reads asked answered ∧ reads' asked' answered' ∧ asked < answered'

def BlockSeen (chronicle : Chronicle) (reads : Nat → Nat → Prop) (block : Nat) : Prop :=
  ∃ asked answered, reads asked answered ∧ Meanwhile asked answered fun moment => block = chronicle.block moment

theorem sampled_block (chronicle : Chronicle) : Sampled (BlockSeen chronicle) where
  before_of_lt := by
    rintro reads reads' _ _ ⟨asked, answered, hread, moment, hasked, _, rfl⟩
      ⟨asked', answered', hread', moment', _, hanswered', rfl⟩ hlt
    have hmoment := chronicle.block_monotone.reflect_lt hlt
    exact ⟨asked, answered, asked', answered', hread, hread', by omega⟩

/-- The transmission is told by its record, or there is none and the epoch is told. -/
inductive StageSeen (chronicle : Chronicle) (reads : Nat → Nat → Prop) : ℕ ×ₗ ℕ → Prop
  | recorded {asked answered : Nat} {stage : ℕ ×ₗ ℕ} (read : reads asked answered)
    (told : Meanwhile asked answered fun moment => chronicle.transmitted moment ∧ stage = chronicle.stage moment) :
    StageSeen chronicle reads stage
  | untransmitted {asked answered asked' answered' epoch : Nat} (read : reads asked answered)
    (missing : Meanwhile asked answered fun moment => ¬chronicle.transmitted moment) (read' : reads asked' answered')
    (told : Meanwhile asked' answered' fun moment => epoch = (ofLex (chronicle.stage moment)).1) :
    StageSeen chronicle reads (toLex (epoch, 0))

theorem epoch_le (stage : ℕ ×ₗ ℕ) : toLex ((ofLex stage).1, 0) ≤ stage :=
  Prod.Lex.toLex_le_toLex'.2 ⟨Nat.le_refl _, fun _ => Nat.zero_le _⟩

theorem epoch_lt {epoch epoch' : Nat} (h : (toLex (epoch, 0) : ℕ ×ₗ ℕ) < toLex (epoch', 0)) : epoch < epoch' := by
  rcases Prod.Lex.toLex_lt_toLex.1 h with h | ⟨_, h⟩
  · exact h
  · exact absurd h (Nat.lt_irrefl 0)

theorem sampled_stage (chronicle : Chronicle) : Sampled (StageSeen chronicle) where
  before_of_lt := by
    rintro reads reads' a b ha hb hlt
    cases ha with
    | recorded read told =>
      obtain ⟨moment, hasked, _, _, rfl⟩ := told
      cases hb with
      | recorded read' told' =>
        obtain ⟨moment', _, hanswered', _, rfl⟩ := told'
        have hmoment := chronicle.stage_monotone.reflect_lt hlt
        exact ⟨_, _, _, _, read, read', by omega⟩
      | untransmitted _ _ read' told' =>
        -- The epoch alone is no later than the stage of that moment.
        obtain ⟨moment', _, hanswered', rfl⟩ := told'
        have hmoment := chronicle.stage_monotone.reflect_lt (lt_of_lt_of_le hlt (epoch_le _))
        exact ⟨_, _, _, _, read, read', by omega⟩
    | untransmitted read missing second told =>
      cases hb with
      | recorded read' told' =>
        obtain ⟨moment, hasked, _, hmissing⟩ := missing
        obtain ⟨moment', _, hanswered', htransmitted, _⟩ := told'
        have hmoment : moment < moment' := by
          by_contra hle
          exact hmissing (chronicle.transmitted_monotone (Nat.le_of_not_lt hle) htransmitted)
        exact ⟨_, _, _, _, read, read', by omega⟩
      | untransmitted _ _ read' told' =>
        obtain ⟨moment, hasked, _, rfl⟩ := told
        obtain ⟨moment', _, hanswered', rfl⟩ := told'
        have hmoment : moment < moment' := by
          by_contra hle
          have hstage := chronicle.stage_monotone (Nat.le_of_not_lt hle)
          exact absurd (epoch_lt hlt) (Nat.not_lt.2 (Prod.Lex.monotone_fst_ofLex hstage))
        exact ⟨_, _, _, _, second, read', by omega⟩

end ReportRelay.Contract.Cache
