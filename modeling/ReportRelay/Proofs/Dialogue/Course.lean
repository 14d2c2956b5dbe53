import ReportRelay.Reply

/-!
# Courses of a dialogue

A course is what a dialogue asked, with the answers that it got, up to its end. The time that passes leaves no
trace in it, so what holds of all courses holds whoever answers and however long it takes.
-/

namespace ReportRelay

theorem Dialogue.bind_assoc {S : Interface} {α β γ : Type} (p : Dialogue S α) (f : α → Dialogue S β)
    (g : β → Dialogue S γ) : (p.bind f).bind g = p.bind fun a => (f a).bind g := by
  induction p with
  | done | crash => rfl
  | wait idle nanos k ih => exact congrArg (wait idle nanos) (funext ih)
  | ask q k ih => exact congrArg (ask q) (funext ih)

theorem Dialogue.bind_done {S : Interface} {α : Type} (p : Dialogue S α) : p.bind done = p := by
  induction p with
  | done | crash => rfl
  | wait idle nanos k ih => exact congrArg (wait idle nanos) (funext ih)
  | ask q k ih => exact congrArg (ask q) (funext ih)

instance {S : Interface} : LawfulMonad (Dialogue S) :=
  LawfulMonad.mk' _ Dialogue.bind_done (fun _ _ => rfl) Dialogue.bind_assoc

/-- A question that was asked, with the answer to it. -/
structure Event (S : Interface) where
  question : S.Question
  answer : S.Answer question

namespace Dialogue

variable {S : Interface} {α β : Type} {t : List (Event S)}

/-- The dialogue may take this course and end like this. -/
def Takes : Dialogue S α → List (Event S) → Except Crash α → Prop
  | done a, t, r => t = [] ∧ r = .ok a
  | crash c, t, r => t = [] ∧ r = .error c
  | wait _ _ k, t, r => (k ()).Takes t r
  | ask q k, t, r => ∃ a u, t = ⟨q, a⟩ :: u ∧ (k a).Takes u r

def Begins (p : Dialogue S α) (t : List (Event S)) : Prop :=
  ∃ u r, p.Takes (t ++ u) r

theorem Takes.begins {p : Dialogue S α} {r : Except Crash α} (h : p.Takes t r) : p.Begins t :=
  ⟨[], r, by rwa [List.append_nil]⟩

@[simp] theorem takes_done {a : α} {r : Except Crash α} :
    (done a : Dialogue S α).Takes t r ↔ t = [] ∧ r = .ok a := Iff.rfl

@[simp] theorem takes_pure {a : α} {r : Except Crash α} :
    (pure a : Dialogue S α).Takes t r ↔ t = [] ∧ r = .ok a := Iff.rfl

@[simp] theorem takes_crash {c : Crash} {r : Except Crash α} :
    (crash c : Dialogue S α).Takes t r ↔ t = [] ∧ r = .error c := Iff.rfl

@[simp] theorem takes_wait {idle : Bool} {nanos : Nat} {k : Unit → Dialogue S α}
    {r : Except Crash α} : (wait idle nanos k).Takes t r ↔ (k ()).Takes t r := Iff.rfl

theorem takes_ask {q : S.Question} {k : S.Answer q → Dialogue S α} {r : Except Crash α} :
    (ask q k).Takes t r ↔ ∃ a u, t = ⟨q, a⟩ :: u ∧ (k a).Takes u r := Iff.rfl

/-- A sequence crashes in its first part, or goes through it and then takes a course of the second. -/
theorem takes_bind {p : Dialogue S α} {f : α → Dialogue S β} {r : Except Crash β} :
    (p.bind f).Takes t r ↔
      (∃ c, p.Takes t (.error c) ∧ r = .error c) ∨
      ∃ a u v, t = u ++ v ∧ p.Takes u (.ok a) ∧ (f a).Takes v r := by
  induction p generalizing t with
  | done a =>
    constructor
    · intro h
      exact .inr ⟨a, [], t, rfl, ⟨rfl, rfl⟩, h⟩
    · rintro (⟨c, ⟨_, hc⟩, _⟩ | ⟨b, u, v, rfl, ⟨rfl, hb⟩, hf⟩)
      · cases hc
      · cases hb
        exact hf
  | crash c =>
    constructor
    · rintro ⟨rfl, rfl⟩
      exact .inl ⟨c, ⟨rfl, rfl⟩, rfl⟩
    · rintro (⟨_, ⟨rfl, hc⟩, rfl⟩ | ⟨b, u, v, _, ⟨_, hb⟩, _⟩)
      · cases hc
        exact ⟨rfl, rfl⟩
      · cases hb
  | wait idle nanos k ih => exact ih ()
  | ask q k ih =>
    simp only [bind, takes_ask, ih]
    constructor
    · rintro ⟨a, u, rfl, ⟨c, h, hr⟩ | ⟨b, v, w, rfl, hp, hf⟩⟩
      · exact .inl ⟨c, ⟨a, u, rfl, h⟩, hr⟩
      · exact .inr ⟨b, ⟨q, a⟩ :: v, w, rfl, ⟨a, v, rfl, hp⟩, hf⟩
    · rintro (⟨c, ⟨a, u, rfl, h⟩, hr⟩ | ⟨b, _, w, rfl, ⟨a, v, rfl, hp⟩, hf⟩)
      · exact ⟨a, u, rfl, .inl ⟨c, h, hr⟩⟩
      · exact ⟨a, v ++ w, rfl, .inr ⟨b, v, w, rfl, hp, hf⟩⟩

theorem takes_monad_bind {p : Dialogue S α} {f : α → Dialogue S β} {r : Except Crash β} :
    (p >>= f).Takes t r ↔
      (∃ c, p.Takes t (.error c) ∧ r = .error c) ∨
      ∃ a u v, t = u ++ v ∧ p.Takes u (.ok a) ∧ (f a).Takes v r :=
  takes_bind

/-- A sequence that comes to a result has gone through both of its parts. -/
theorem takes_monad_bind_ok {p : Dialogue S α} {f : α → Dialogue S β} {b : β} :
    (p >>= f).Takes t (.ok b) ↔ ∃ a u v, t = u ++ v ∧ p.Takes u (.ok a) ∧ (f a).Takes v (.ok b) := by
  rw [takes_monad_bind]
  constructor
  · rintro (⟨c, _, hcrash⟩ | h)
    · cases hcrash
    · exact h
  · exact .inr

theorem takes_question {q : S.Question} {r : Except Crash (S.Answer q)} :
    (question q).Takes t r ↔ ∃ a, t = [⟨q, a⟩] ∧ r = .ok a := by
  constructor
  · rintro ⟨a, u, rfl, rfl, rfl⟩
    exact ⟨a, rfl, rfl⟩
  · rintro ⟨a, rfl, rfl⟩
    exact ⟨a, [], rfl, rfl, rfl⟩

@[simp] theorem takes_pass {nanos : Nat} {r : Except Crash Unit} :
    (pass nanos : Dialogue S Unit).Takes t r ↔ t = [] ∧ r = .ok () := by
  unfold pass
  split <;> simp

@[simp] theorem takes_pass_bind {nanos : Nat} {f : Unit → Dialogue S β} {r : Except Crash β} :
    ((pass nanos).bind f).Takes t r ↔ (f ()).Takes t r := by
  unfold pass
  split <;> exact Iff.rfl

theorem takes_guarded {p : Dialogue S α} {r : Except Crash (Except Crash α)} :
    p.guarded.Takes t r ↔ ∃ s, p.Takes t s ∧ r = .ok s := by
  induction p generalizing t with
  | done a =>
    constructor
    · rintro ⟨rfl, rfl⟩
      exact ⟨.ok a, ⟨rfl, rfl⟩, rfl⟩
    · rintro ⟨_, ⟨rfl, rfl⟩, rfl⟩
      exact ⟨rfl, rfl⟩
  | crash c =>
    constructor
    · rintro ⟨rfl, rfl⟩
      exact ⟨.error c, ⟨rfl, rfl⟩, rfl⟩
    · rintro ⟨_, ⟨rfl, rfl⟩, rfl⟩
      exact ⟨rfl, rfl⟩
  | wait idle nanos k ih => exact ih ()
  | ask q k ih =>
    simp only [guarded, takes_ask, ih]
    constructor
    · rintro ⟨a, u, rfl, s, h, hr⟩
      exact ⟨s, ⟨a, u, rfl, h⟩, hr⟩
    · rintro ⟨s, ⟨a, u, rfl, h⟩, hr⟩
      exact ⟨a, u, rfl, s, h, hr⟩

/-- A sequence goes on where its first part has come to a result. -/
theorem run_bind_of_ok {σ : Type} {pass : Nat → σ → σ} {answer : (q : S.Question) → σ → S.Answer q × σ}
    {p : Dialogue S α} {s : σ} {a : α} (h : (p.run pass answer s).1 = .ok a) (f : α → Dialogue S β) :
    (p.bind f).run pass answer s = (f a).run pass answer (p.run pass answer s).2 := by
  induction p generalizing s with
  | done b =>
    cases h
    rfl
  | crash c => cases h
  | wait idle nanos k ih => exact ih () h
  | ask q k ih => exact ih (answer q s).1 h

theorem run_guarded {σ : Type} {pass : Nat → σ → σ} {answer : (q : S.Question) → σ → S.Answer q × σ}
    (p : Dialogue S α) (s : σ) :
    p.guarded.run pass answer s = (.ok (p.run pass answer s).1, (p.run pass answer s).2) := by
  induction p generalizing s with
  | done | crash => rfl
  | wait idle nanos k ih => exact ih () _
  | ask q k ih => exact ih (answer q s).1 _

/-- When every question has some answer, every dialogue has some course. -/
theorem exists_takes (answers : ∀ q, Nonempty (S.Answer q)) (p : Dialogue S α) :
    ∃ t r, p.Takes t r := by
  induction p with
  | done a => exact ⟨[], .ok a, rfl, rfl⟩
  | crash c => exact ⟨[], .error c, rfl, rfl⟩
  | wait idle nanos k ih => exact ih ()
  | ask q k ih =>
    obtain ⟨a⟩ := answers q
    obtain ⟨u, r, h⟩ := ih a
    exact ⟨⟨q, a⟩ :: u, r, a, u, rfl, h⟩

end Dialogue

/-- How an attempt came to no result. -/
inductive Failure
  | crash (reason : Crash)
  | error (e : Error)

def Failure.result {α : Type} : Failure → Except Crash (Except Error α)
  | crash reason => .error reason
  | error e => .ok (.error e)

namespace Attempt

open Dialogue

variable {S : Interface} {α β : Type} {t : List (Event S)}

def Takes (x : Attempt S α) (t : List (Event S)) (r : Except Crash (Except Error α)) : Prop :=
  Dialogue.Takes x.outcome t r

@[simp] theorem takes_pure {a : α} {r : Except Crash (Except Error α)} :
    (pure a : Attempt S α).Takes t r ↔ t = [] ∧ r = .ok (.ok a) := Iff.rfl

@[simp] theorem takes_throw {e : Error} {r : Except Crash (Except Error α)} :
    (throw e : Attempt S α).Takes t r ↔ t = [] ∧ r = .ok (.error e) := Iff.rfl

theorem takes_bind {x : Attempt S α} {f : α → Attempt S β} {r : Except Crash (Except Error β)} :
    (x >>= f).Takes t r ↔
      (∃ failure : Failure, x.Takes t failure.result ∧ r = failure.result) ∨
      ∃ a u v, t = u ++ v ∧ x.Takes u (.ok (.ok a)) ∧ (f a).Takes v r := by
  have h : (x >>= f).Takes t r ↔ (Dialogue.bind x.outcome (ExceptT.bindCont f)).Takes t r := Iff.rfl
  rw [h, Dialogue.takes_bind]
  constructor
  · rintro (⟨c, hx, hr⟩ | ⟨a | a, u, v, rfl, hx, hf⟩)
    · exact .inl ⟨.crash c, hx, hr⟩
    · obtain ⟨rfl, hr⟩ := hf
      exact .inl ⟨.error a, by rwa [List.append_nil], hr⟩
    · exact .inr ⟨a, u, v, rfl, hx, hf⟩
  · rintro (⟨c | e, hx, hr⟩ | ⟨a, u, v, rfl, hx, hf⟩)
    · exact .inl ⟨c, hx, hr⟩
    · exact .inr ⟨.error e, t, [], (List.append_nil t).symm, hx, rfl, hr⟩
    · exact .inr ⟨.ok a, u, v, rfl, hx, hf⟩

theorem takes_ofDialogue {p : Dialogue S α} {r : Except Crash (Except Error α)} :
    (ofDialogue p).Takes t r ↔ ∃ s, p.Takes t s ∧ r = s.map .ok := by
  have h : (ofDialogue p).Takes t r ↔ (p.bind fun a => done (.ok a)).Takes t r := Iff.rfl
  rw [h, Dialogue.takes_bind]
  constructor
  · rintro (⟨c, hp, rfl⟩ | ⟨a, u, v, rfl, hp, rfl, rfl⟩)
    · exact ⟨.error c, hp, rfl⟩
    · exact ⟨.ok a, by rwa [List.append_nil], rfl⟩
  · rintro ⟨c | a, hp, rfl⟩
    · exact .inl ⟨c, hp, rfl⟩
    · exact .inr ⟨a, t, [], (List.append_nil t).symm, hp, rfl, rfl⟩

theorem takes_ofDialogue_bind {p : Dialogue S α} {f : α → Attempt S β}
    {r : Except Crash (Except Error β)} :
    (ofDialogue p >>= f).Takes t r ↔
      (∃ c, p.Takes t (.error c) ∧ r = .error c) ∨
      ∃ a u v, t = u ++ v ∧ p.Takes u (.ok a) ∧ (f a).Takes v r := by
  rw [takes_bind]
  constructor
  · rintro (⟨c | e, h, rfl⟩ | ⟨a, u, v, rfl, hu, hv⟩)
    · obtain ⟨_ | _, hp, hr⟩ := takes_ofDialogue.1 h <;> cases hr
      exact .inl ⟨c, hp, rfl⟩
    · obtain ⟨_ | _, _, hr⟩ := takes_ofDialogue.1 h <;> cases hr
    · obtain ⟨_ | _, hp, hr⟩ := takes_ofDialogue.1 hu <;> cases hr
      exact .inr ⟨a, u, v, rfl, hp, hv⟩
  · rintro (⟨c, hp, rfl⟩ | ⟨a, u, v, rfl, hp, hv⟩)
    · exact .inl ⟨.crash c, takes_ofDialogue.2 ⟨_, hp, rfl⟩, rfl⟩
    · exact .inr ⟨a, u, v, rfl, takes_ofDialogue.2 ⟨_, hp, rfl⟩, hv⟩

theorem takes_caught_bind {x : Attempt S α} {f : Except Error α → Attempt S β}
    {r : Except Crash (Except Error β)} :
    (x.caught >>= f).Takes t r ↔
      (∃ c, x.Takes t (.error c) ∧ r = .error c) ∨
      ∃ a u v, t = u ++ v ∧ x.Takes u (.ok a) ∧ (f a).Takes v r :=
  takes_ofDialogue_bind

/-- What comes of a reply is its outcome, however long it takes. -/
theorem takes_receive {reply : Reply α} {r : Except Crash (Except Error α)} :
    (reply.receive : Dialogue S (Except Error α)).Takes t r ↔ t = [] ∧ r = reply.outcome := by
  unfold Reply.receive Reply.await Dialogue.pass
  split <;> cases reply.outcome <;> exact Iff.rfl

theorem takes_ofReply {p : Dialogue S (Reply α)} {r : Except Crash (Except Error α)} :
    (ofReply p).Takes t r ↔
      (∃ c, p.Takes t (.error c) ∧ r = .error c) ∨
      ∃ reply, p.Takes t (.ok reply) ∧ r = reply.outcome := by
  have h : (ofReply p).Takes t r ↔ (p.bind Reply.receive).Takes t r := Iff.rfl
  rw [h, Dialogue.takes_bind]
  simp only [takes_receive]
  constructor
  · rintro (h | ⟨reply, u, v, rfl, hp, rfl, rfl⟩)
    · exact .inl h
    · exact .inr ⟨reply, by rwa [List.append_nil], rfl⟩
  · rintro (h | ⟨reply, hp, rfl⟩)
    · exact .inl h
    · exact .inr ⟨reply, t, [], (List.append_nil t).symm, hp, rfl, rfl⟩

end Attempt

end ReportRelay
