import ReportRelay.Proofs.Dialogue.Course

/-!
# Dialogues that do not care about time

An answer may tell how long it took. A dialogue that does no more with this than wait goes on in the same way,
however long it was. So two courses of it are the same for as long as the same questions are answered alike.
-/

namespace ReportRelay

variable {S : Interface} {α β : Type}

/-- The reply, as if it had come at once. -/
def Reply.instant (reply : Reply α) : Reply α :=
  { reply with nanos := 0 }

theorem Reply.outcome_eq_of_instant {a b : Reply α} (h : a.instant = b.instant) : a.outcome = b.outcome :=
  (Reply.mk.inj h).2

instance [DecidableEq S.Question] [∀ question, DecidableEq (S.Answer question)] : DecidableEq (Event S)
  | ⟨question, a⟩, ⟨question', b⟩ =>
    match question', decEq question question', b with
    | _, isTrue rfl, b =>
      decidable_of_iff (a = b) ⟨fun h => h ▸ rfl, fun h => eq_of_heq (Event.mk.inj h).2⟩
    | _, isFalse hne, _ => isFalse fun h => hne (Event.mk.inj h).1

def Event.map (f : (question : S.Question) → S.Answer question → S.Answer question) (e : Event S) : Event S :=
  ⟨e.question, f e.question e.answer⟩

/-- For as long as the same is asked in both lists, the answers are the same. -/
def AnsweredAlike : List (Event S) → List (Event S) → Prop
  | e :: es, f :: fs => e.question = f.question → e = f ∧ AnsweredAlike es fs
  | _, _ => True

instance decidableAnsweredAlike [DecidableEq S.Question] [DecidableEq (Event S)] :
    (es fs : List (Event S)) → Decidable (AnsweredAlike es fs)
  | [], _ => isTrue trivial
  | _ :: _, [] => isTrue trivial
  | e :: es, f :: fs =>
    have := decidableAnsweredAlike es fs
    inferInstanceAs (Decidable (e.question = f.question → e = f ∧ AnsweredAlike es fs))

theorem AnsweredAlike.of_append {es es' fs fs' : List (Event S)} (h : AnsweredAlike (es ++ es') (fs ++ fs')) :
    AnsweredAlike es fs := by
  induction es generalizing fs with
  | nil => trivial
  | cons e es ih =>
    cases fs with
    | nil => trivial
    | cons f fs =>
      intro heq
      obtain ⟨rfl, hrest⟩ := h heq
      exact ⟨rfl, ih hrest⟩

namespace Dialogue

variable {instant : (question : S.Question) → S.Answer question → S.Answer question}

/-- Answers that differ in no more than the time they took are followed by the same courses. -/
def Timeless (instant : (question : S.Question) → S.Answer question → S.Answer question) : Dialogue S α → Prop
  | done _ | crash _ => True
  | wait _ _ k => Timeless instant (k ())
  | ask q k => (∀ a b, instant q a = instant q b → ∀ t r, (k a).Takes t r ↔ (k b).Takes t r) ∧
    ∀ a, Timeless instant (k a)

/-- As long as two courses of a timeless dialogue are answered alike, they are the same. -/
theorem Timeless.eq_of_answeredAlike {p : Dialogue S α} (h : p.Timeless instant) {t t' : List (Event S)}
    {r r' : Except Crash α} (ht : p.Takes t r) (ht' : p.Takes t' r')
    (halike : AnsweredAlike (t.map (Event.map instant)) (t'.map (Event.map instant))) :
    t.map (Event.map instant) = t'.map (Event.map instant) ∧ r = r' := by
  induction p generalizing t t' with
  | done | crash =>
    obtain ⟨rfl, rfl⟩ := ht
    obtain ⟨rfl, rfl⟩ := ht'
    exact ⟨rfl, rfl⟩
  | wait idle nanos k ih => exact ih () h ht ht' halike
  | ask q k ih =>
    obtain ⟨a, u, rfl, hu⟩ := ht
    obtain ⟨a', u', rfl, hu'⟩ := ht'
    obtain ⟨heq, hrest⟩ := halike rfl
    have hinstant : instant q a = instant q a' := eq_of_heq (Event.mk.inj heq).2
    obtain ⟨hsame, hr⟩ := ih a (h.2 a) hu ((h.1 a a' hinstant u' r').2 hu') hrest
    refine ⟨?_, hr⟩
    rw [List.map_cons, List.map_cons, heq, hsame]

/-! ## How timeless dialogues are made -/

theorem Timeless.bind {p : Dialogue S α} {f : α → Dialogue S β} (hp : p.Timeless instant)
    (hf : ∀ a, (f a).Timeless instant) : (p.bind f).Timeless instant := by
  induction p with
  | done a => exact hf a
  | crash c => trivial
  | wait idle nanos k ih => exact ih () hp
  | ask q k ih =>
    refine ⟨fun a b hab t r => ?_, fun a => ih a (hp.2 a)⟩
    simp only [takes_bind, hp.1 a b hab]

theorem timeless_pass (nanos : Nat) : (pass nanos : Dialogue S Unit).Timeless instant := by
  unfold pass
  split <;> trivial

/-- A question of which the answer is used whole, where the time it took is no part of it. -/
theorem timeless_question {q : S.Question} (h : ∀ a, instant q a = a) : (question q).Timeless instant := by
  refine ⟨fun a b hab t r => ?_, fun _ => trivial⟩
  rw [h, h] at hab
  rw [hab]

end Dialogue

namespace Attempt

open Dialogue

variable {instant : (question : S.Question) → S.Answer question → S.Answer question}

theorem timeless_bind {x : Attempt S α} {f : α → Attempt S β} (hx : x.outcome.Timeless instant)
    (hf : ∀ a, (f a).outcome.Timeless instant) : (x >>= f).outcome.Timeless instant := by
  refine Timeless.bind (f := ExceptT.bindCont f) hx fun a => ?_
  cases a with
  | ok a => exact hf a
  | error e => trivial

theorem timeless_ofDialogue {p : Dialogue S α} (h : p.Timeless instant) :
    (ofDialogue p).outcome.Timeless instant :=
  Timeless.bind h fun _ => trivial

theorem timeless_caught {x : Attempt S α} (h : x.outcome.Timeless instant) :
    x.caught.outcome.Timeless instant :=
  timeless_ofDialogue h

/-- A question that is answered by a reply, of which only the outcome counts. -/
theorem timeless_receive (q : S.Question) (reply : S.Answer q → Reply α)
    (h : ∀ a b, instant q a = instant q b → (reply a).outcome = (reply b).outcome) :
    (ask q fun a => (reply a).receive).Timeless instant := by
  refine ⟨fun a b hab t r => ?_, fun a => ?_⟩
  · rw [takes_receive, takes_receive, h a b hab]
  · refine Timeless.bind (Timeless.bind (timeless_pass (reply a).nanos) fun _ => trivial) fun outcome => ?_
    cases outcome <;> trivial

end Attempt

end ReportRelay
