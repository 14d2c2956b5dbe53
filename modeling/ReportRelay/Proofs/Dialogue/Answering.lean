import ReportRelay.Proofs.Dialogue.Course

/-!
# Dialogues that are answered by dialogues

Where every question of a dialogue is replaced by a dialogue that finds its answer, a course of the whole is put
together from courses of these, one after the other, with the state that they pass along.
-/

namespace ReportRelay.Dialogue

variable {S T : Interface} {α β σ : Type}

/-! ## What a dialogue may ask -/

/-- Whatever it is told, the dialogue asks no other questions. -/
def AsksOnly (P : S.Question → Prop) (p : Dialogue S α) : Prop :=
  ∀ t r, p.Takes t r → ∀ e ∈ t, P e.question

namespace AsksOnly

variable {P : S.Question → Prop} {p : Dialogue S α}

theorem done (a : α) : AsksOnly P (Dialogue.done a) := by
  rintro t r ⟨rfl, _⟩
  exact List.forall_mem_nil _

theorem question {q : S.Question} (h : P q) : AsksOnly P (Dialogue.question q) := by
  intro t r ht
  obtain ⟨a, rfl, _⟩ := takes_question.1 ht
  exact List.forall_mem_singleton.2 h

theorem pass (nanos : Nat) : AsksOnly P (Dialogue.pass nanos) := by
  intro t r ht
  rw [(takes_pass.1 ht).1]
  exact List.forall_mem_nil _

theorem bind {f : α → Dialogue S β} (hp : AsksOnly P p) (hf : ∀ a, AsksOnly P (f a)) : AsksOnly P (p.bind f) := by
  intro t r ht
  rcases takes_bind.1 ht with ⟨c, hc, _⟩ | ⟨a, u, v, rfl, hu, hv⟩
  · exact hp t _ hc
  · exact List.forall_mem_append.2 ⟨hp u _ hu, hf a v r hv⟩

theorem guarded (hp : AsksOnly P p) : AsksOnly P p.guarded := by
  intro t r ht
  obtain ⟨s, hs, _⟩ := takes_guarded.1 ht
  exact hp t s hs

theorem through {p : Dialogue T α} {answer : (q : T.Question) → Dialogue S (T.Answer q)}
    (h : ∀ q, AsksOnly P (answer q)) : AsksOnly P (p.through answer) := by
  induction p with
  | done a => exact done a
  | crash c =>
    rintro t r ⟨rfl, _⟩
    exact List.forall_mem_nil _
  | wait idle nanos k ih => exact ih ()
  | ask q k ih => exact (h q).bind ih

end AsksOnly

/-! ## Courses of answers -/

variable {answer : (q : S.Question) → σ → Dialogue T (S.Answer q × σ)} {s s' : σ} {es fs : List (Event S)}
  {t : List (Event T)}

/-- What is asked while questions are answered in turn. The last answer may be missing, where the search for it has
crashed. -/
inductive Enacts (answer : (q : S.Question) → σ → Dialogue T (S.Answer q × σ)) :
    σ → List (Event S) → List (Event T) → σ → Prop
  | done {s : σ} : Enacts answer s [] [] s
  | next {s middle s' : σ} {e : Event S} {es : List (Event S)} {u v : List (Event T)}
    (first : (answer e.question s).Takes u (.ok (e.answer, middle))) (rest : Enacts answer middle es v s') :
    Enacts answer s (e :: es) (u ++ v) s'
  | crashed {s : σ} {e : Event S} {u : List (Event T)} {c : Crash}
    (crashed : (answer e.question s).Takes u (.error c)) : Enacts answer s [e] u s

theorem takes_answering (answers : ∀ q, Nonempty (S.Answer q)) {p : Dialogue S α} {r : Except Crash (Except Crash α × σ)}
    (h : (p.answering answer s).Takes t r) :
    ∃ es s', Enacts answer s es t s' ∧ p.Begins es ∧ ∀ outcome, r = .ok outcome → outcome.2 = s' := by
  induction p generalizing s t with
  | done a =>
    obtain ⟨rfl, rfl⟩ := h
    refine ⟨[], s, .done, ⟨[], .ok a, rfl, rfl⟩, ?_⟩
    intro outcome hr
    cases hr
    rfl
  | crash c =>
    obtain ⟨rfl, rfl⟩ := h
    refine ⟨[], s, .done, ⟨[], .error c, rfl, rfl⟩, ?_⟩
    intro outcome hr
    cases hr
    rfl
  | wait idle nanos k ih => exact ih () h
  | ask q k ih =>
    rcases takes_bind.1 h with ⟨c, hc, rfl⟩ | ⟨⟨a, middle⟩, u, v, rfl, hu, hv⟩
    · obtain ⟨a⟩ := answers q
      obtain ⟨w, o, hw⟩ := exists_takes answers (k a)
      exact ⟨[⟨q, a⟩], s, .crashed hc, ⟨w, o, a, w, rfl, hw⟩, nofun⟩
    · obtain ⟨es, s', henacts, ⟨w, o, hbegins⟩, hend⟩ := ih a hv
      exact ⟨⟨q, a⟩ :: es, s', .next hu henacts, ⟨w, o, a, es ++ w, rfl, hbegins⟩, hend⟩

namespace Enacts

theorem exists_of_append (h : Enacts answer s (es ++ fs) t s') :
    ∃ u v middle, t = u ++ v ∧ Enacts answer s es u middle ∧ Enacts answer middle fs v s' := by
  induction es generalizing s t with
  | nil => exact ⟨[], t, s, rfl, .done, h⟩
  | cons e es ih =>
    rw [List.cons_append] at h
    generalize hrest : es ++ fs = rest at h
    cases h with
    | next first hlater =>
      subst hrest
      obtain ⟨u, v, middle, rfl, hes, hfs⟩ := ih hlater
      exact ⟨_, v, middle, (List.append_assoc _ u v).symm, .next first hes, hfs⟩
    | crashed crashed =>
      obtain ⟨rfl, rfl⟩ := List.append_eq_nil_iff.1 hrest
      exact ⟨t, [], _, (List.append_nil t).symm, .crashed crashed, .done⟩

/-- All that is asked is asked for the sake of some question. -/
theorem exists_of_mem (h : Enacts answer s es t s') {x : Event T} (hx : x ∈ t) :
    ∃ e ∈ es, ∃ before u r, (answer e.question before).Takes u r ∧ x ∈ u := by
  induction h with
  | done => cases hx
  | next first _ ih =>
    rcases List.mem_append.1 hx with hx | hx
    · exact ⟨_, List.mem_cons_self, _, _, _, first, hx⟩
    · obtain ⟨e, he, hrest⟩ := ih hx
      exact ⟨e, List.mem_cons_of_mem _ he, hrest⟩
  | crashed crashed => exact ⟨_, List.mem_singleton_self _, _, _, _, crashed, hx⟩

/-- What every answer preserves holds in the end. -/
theorem invariant (I : σ → Prop) (h : Enacts answer s es t s')
    (hstep : ∀ e ∈ es, ∀ u ⊆ t, ∀ before after, (answer e.question before).Takes u (.ok (e.answer, after)) →
      I before → I after) (hs : I s) : I s' := by
  induction h with
  | done => exact hs
  | next first _ ih =>
    apply ih
    · intro e he u hu
      exact hstep e (List.mem_cons_of_mem _ he) u (List.subset_append_of_subset_right _ hu)
    · exact hstep _ List.mem_cons_self _ (List.subset_append_left _ _) _ _ first hs
  | crashed => exact hs

end Enacts

theorem AsksOnly.answering (answers : ∀ q, Nonempty (S.Answer q)) {P : T.Question → Prop} {p : Dialogue S α}
    (h : ∀ q s, AsksOnly P (answer q s)) (s : σ) : AsksOnly P (p.answering answer s) := by
  intro t r ht x hx
  obtain ⟨es, s', henacts, _⟩ := takes_answering answers ht
  obtain ⟨e, _, before, u, o, hu, hxu⟩ := henacts.exists_of_mem hx
  exact h e.question before u o hu x hxu

end ReportRelay.Dialogue

namespace ReportRelay.Attempt

open Dialogue

variable {S : Interface} {α β : Type} {P : S.Question → Prop}

theorem asksOnly_bind {x : Attempt S α} {f : α → Attempt S β} (hx : x.outcome.AsksOnly P)
    (hf : ∀ a, (f a).outcome.AsksOnly P) : (x >>= f).outcome.AsksOnly P :=
  AsksOnly.bind hx fun
    | .error _ => .done _
    | .ok a => hf a

theorem asksOnly_ofDialogue {p : Dialogue S α} (hp : p.AsksOnly P) : (ofDialogue p).outcome.AsksOnly P :=
  AsksOnly.bind hp fun _ => .done _

theorem asksOnly_ofReply {p : Dialogue S (Reply α)} (hp : p.AsksOnly P) : (ofReply p).outcome.AsksOnly P := by
  refine AsksOnly.bind hp fun reply t r ht => ?_
  rw [(takes_receive.1 ht).1]
  exact List.forall_mem_nil _

end ReportRelay.Attempt
