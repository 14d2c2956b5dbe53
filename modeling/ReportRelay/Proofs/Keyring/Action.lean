import ReportRelay.Keyring
import ReportRelay.Proofs.Dialogue.Course

/-!
# Courses of actions on a keyring

What an action asks of the keystore, what comes of it, and what it leaves of the keyring.
-/

namespace ReportRelay

theorem Failure.result_ne {α : Type} {failure : Failure} {a : α} : failure.result ≠ .ok (.ok a) := by
  cases failure <;> exact nofun

namespace Keyring.Action

open Dialogue

variable {α β : Type} {before after : Keyring} {t : List (Event keystore)} {x : Action α}

/-- The action may take this course from one keyring to another. -/
def Takes (x : Action α) (before : Keyring) (t : List (Event keystore)) (outcome : Except Crash (Except Error α))
    (after : Keyring) : Prop :=
  (x.run before).Takes t (.ok (outcome, after))

@[simp] theorem takes_pure {a : α} {outcome : Except Crash (Except Error α)} :
    (pure a : Action α).Takes before t outcome after ↔ t = [] ∧ outcome = .ok (.ok a) ∧ after = before := by
  have h : (pure a : Action α).Takes before t outcome after ↔
      t = [] ∧ (.ok (outcome, after) : Except Crash _) = .ok (.ok (.ok a), before) := Iff.rfl
  simp [h]

@[simp] theorem takes_throw {e : Error} {outcome : Except Crash (Except Error α)} :
    (throw e : Action α).Takes before t outcome after ↔ t = [] ∧ outcome = .ok (.error e) ∧ after = before := by
  have h : (throw e : Action α).Takes before t outcome after ↔
      t = [] ∧ (.ok (outcome, after) : Except Crash _) = .ok (.ok (.error e), before) := Iff.rfl
  simp [h]

/-- A sequence fails in its first part, or goes on from what that leaves. -/
theorem takes_bind {f : α → Action β} {outcome : Except Crash (Except Error β)} :
    (x >>= f).Takes before t outcome after ↔
      (∃ failure : Failure, x.Takes before t failure.result after ∧ outcome = failure.result) ∨
      ∃ a u v middle, t = u ++ v ∧ x.Takes before u (.ok (.ok a)) middle ∧ (f a).Takes middle v outcome after := by
  have h : (x >>= f).Takes before t outcome after ↔ ((x.run before).bind fun r =>
      StateT.run (ExceptT.bindCont (ExceptT.bindCont f) r.1) r.2).Takes t (.ok (outcome, after)) := Iff.rfl
  rw [h, Dialogue.takes_bind]
  constructor
  · rintro (⟨c, _, hr⟩ | ⟨⟨c | e | a, middle⟩, u, v, rfl, hx, hf⟩)
    · cases hr
    · obtain ⟨rfl, hr⟩ := hf
      cases hr
      exact .inl ⟨.crash c, by rwa [List.append_nil], rfl⟩
    · obtain ⟨rfl, hr⟩ := hf
      cases hr
      exact .inl ⟨.error e, by rwa [List.append_nil], rfl⟩
    · exact .inr ⟨a, u, v, middle, rfl, hx, hf⟩
  · rintro (⟨c | e, hx, rfl⟩ | ⟨a, u, v, middle, rfl, hx, hf⟩)
    · exact .inr ⟨(.error c, after), t, [], (List.append_nil t).symm, hx, rfl, rfl⟩
    · exact .inr ⟨(.ok (.error e), after), t, [], (List.append_nil t).symm, hx, rfl, rfl⟩
    · exact .inr ⟨(.ok (.ok a), middle), u, v, rfl, hx, hf⟩

@[simp] theorem takes_get_bind {f : Keyring → Action β} {outcome : Except Crash (Except Error β)} :
    (get >>= f : Action β).Takes before t outcome after ↔ (f before).Takes before t outcome after :=
  Iff.rfl

@[simp] theorem takes_set {keyring : Keyring} {outcome : Except Crash (Except Error PUnit)} :
    (set keyring : Action PUnit).Takes before t outcome after ↔ t = [] ∧ outcome = .ok (.ok ⟨⟩) ∧ after = keyring := by
  have h : (set keyring : Action PUnit).Takes before t outcome after ↔
      t = [] ∧ (.ok (outcome, after) : Except Crash _) = .ok (.ok (.ok ⟨⟩), keyring) := Iff.rfl
  simp [h]

/-- A step that may fail asks nothing and leaves the keyring as it is. -/
theorem takes_liftExcept_bind {r : Except Error α} {f : α → Action β} {outcome : Except Crash (Except Error β)} :
    ((liftM r : Action α) >>= f).Takes before t outcome after ↔
      (∃ e, r = .error e ∧ t = [] ∧ outcome = .ok (.error e) ∧ after = before) ∨
      ∃ a, r = .ok a ∧ (f a).Takes before t outcome after := by
  cases r with
  | error e =>
    have h : ((liftM (Except.error e : Except Error α) : Action α) >>= f).Takes before t outcome after ↔
        (throw e : Action β).Takes before t outcome after := Iff.rfl
    simp [h]
  | ok a =>
    have h : ((liftM (Except.ok a : Except Error α) : Action α) >>= f).Takes before t outcome after ↔
        (f a).Takes before t outcome after := Iff.rfl
    simp [h]

theorem takes_await {reply : Reply α} {r : Except Crash (Except Crash (Except Error α))} :
    (reply.await : Dialogue keystore _).Takes t r ↔ t = [] ∧ r = .ok reply.outcome :=
  takes_pass_bind

theorem takes_ofReply_ask {q : keystore.Question} {reply : keystore.Answer q → Reply α}
    {outcome : Except Crash (Except Error α)} :
    (ofReply (ask q fun answer => done (reply answer))).Takes before t outcome after ↔
      (∃ answer, t = [⟨q, answer⟩] ∧ outcome = (reply answer).outcome) ∧ after = before := by
  have h : (ofReply (ask q fun answer => done (reply answer))).Takes before t outcome after ↔
      ∃ answer u, t = ⟨q, answer⟩ :: u ∧
        ((reply answer).await.bind fun r => done (r, before)).Takes u (.ok (outcome, after)) := Iff.rfl
  simp only [h, Dialogue.takes_bind, takes_await, takes_done]
  constructor
  · rintro ⟨answer, u, rfl, ⟨c, _, hr⟩ | ⟨r, _, _, rfl, ⟨rfl, hout⟩, rfl, hr⟩⟩
    · cases hr
    · cases hout
      cases hr
      exact ⟨⟨answer, rfl, rfl⟩, rfl⟩
  · rintro ⟨⟨answer, rfl, rfl⟩, rfl⟩
    exact ⟨answer, [], rfl, .inr ⟨_, [], [], rfl, ⟨rfl, rfl⟩, rfl, rfl⟩⟩

end Keyring.Action

end ReportRelay
