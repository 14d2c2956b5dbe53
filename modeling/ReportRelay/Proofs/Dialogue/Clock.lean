import ReportRelay.Proofs.Dialogue.Answering
import ReportRelay.Proofs.Dialogue.Transcript

/-!
# Courses on a clock

A course with the times at which its questions were asked. Time passes only where a dialogue waits, and an answer may
tell how long that is, so what holds of all these courses holds however long anybody takes.
-/

namespace ReportRelay

/-- What was asked at some time, with the answer to it. -/
structure Dated (S : Interface) where
  time : Nat
  event : Event S

namespace Dialogue

variable {S : Interface} {α β σ : Type} {start finish : Nat} {t : List (Dated S)}

/-- Begun at `start` the dialogue may take this course, and end like this at `finish`. -/
def Lasts : Dialogue S α → Nat → List (Dated S) → Nat → Except Crash α → Prop
  | done a, start, t, finish, r => t = [] ∧ finish = start ∧ r = .ok a
  | crash c, start, t, finish, r => t = [] ∧ finish = start ∧ r = .error c
  | wait _ nanos k, start, t, finish, r => (k ()).Lasts (start + nanos) t finish r
  | ask q k, start, t, finish, r => ∃ a u, t = ⟨start, q, a⟩ :: u ∧ (k a).Lasts start u finish r

/-- So far the dialogue may have come. -/
def LastsSoFar (p : Dialogue S α) (start : Nat) (t : List (Dated S)) : Prop :=
  ∃ u finish r, p.Lasts start (t ++ u) finish r

theorem Lasts.soFar {p : Dialogue S α} {r : Except Crash α} (h : p.Lasts start t finish r) : p.LastsSoFar start t :=
  ⟨[], finish, r, by rwa [List.append_nil]⟩

theorem LastsSoFar.of_append {p : Dialogue S α} {u : List (Dated S)} (h : p.LastsSoFar start (t ++ u)) :
    p.LastsSoFar start t := by
  obtain ⟨v, finish, r, hv⟩ := h
  exact ⟨u ++ v, finish, r, by rwa [← List.append_assoc]⟩

@[simp] theorem lasts_done {a : α} {r : Except Crash α} :
    (done a : Dialogue S α).Lasts start t finish r ↔ t = [] ∧ finish = start ∧ r = .ok a := Iff.rfl

@[simp] theorem lasts_crash {c : Crash} {r : Except Crash α} :
    (crash c : Dialogue S α).Lasts start t finish r ↔ t = [] ∧ finish = start ∧ r = .error c := Iff.rfl

/-- A sequence crashes in its first part, or goes through it and takes a course of the second from then on. -/
theorem lasts_bind {p : Dialogue S α} {f : α → Dialogue S β} {r : Except Crash β} :
    (p.bind f).Lasts start t finish r ↔
      (∃ c, p.Lasts start t finish (.error c) ∧ r = .error c) ∨
      ∃ a u v middle, t = u ++ v ∧ p.Lasts start u middle (.ok a) ∧ (f a).Lasts middle v finish r := by
  induction p generalizing start t with
  | done a =>
    constructor
    · intro h
      exact .inr ⟨a, [], t, start, rfl, ⟨rfl, rfl, rfl⟩, h⟩
    · rintro (⟨c, ⟨_, _, hc⟩, _⟩ | ⟨b, u, v, middle, rfl, ⟨rfl, rfl, hb⟩, hf⟩)
      · cases hc
      · cases hb
        exact hf
  | crash c =>
    constructor
    · rintro ⟨rfl, rfl, rfl⟩
      exact .inl ⟨c, ⟨rfl, rfl, rfl⟩, rfl⟩
    · rintro (⟨_, ⟨rfl, rfl, hc⟩, rfl⟩ | ⟨b, u, v, middle, _, ⟨_, _, hb⟩, _⟩)
      · cases hc
        exact ⟨rfl, rfl, rfl⟩
      · cases hb
  | wait idle nanos k ih => exact ih ()
  | ask q k ih =>
    simp only [bind, Lasts, ih]
    constructor
    · rintro ⟨a, u, rfl, ⟨c, h, hr⟩ | ⟨b, v, w, middle, rfl, hp, hf⟩⟩
      · exact .inl ⟨c, ⟨a, u, rfl, h⟩, hr⟩
      · exact .inr ⟨b, ⟨start, q, a⟩ :: v, w, middle, rfl, ⟨a, v, rfl, hp⟩, hf⟩
    · rintro (⟨c, ⟨a, u, rfl, h⟩, hr⟩ | ⟨b, _, w, middle, rfl, ⟨a, v, rfl, hp⟩, hf⟩)
      · exact ⟨a, u, rfl, .inl ⟨c, h, hr⟩⟩
      · exact ⟨a, v ++ w, rfl, .inr ⟨b, v, w, middle, rfl, hp, hf⟩⟩

theorem lasts_question {q : S.Question} {r : Except Crash (S.Answer q)} :
    (question q).Lasts start t finish r ↔ ∃ a, t = [⟨start, q, a⟩] ∧ finish = start ∧ r = .ok a := by
  constructor
  · rintro ⟨a, u, rfl, rfl, rfl, rfl⟩
    exact ⟨a, rfl, rfl, rfl⟩
  · rintro ⟨a, rfl, rfl, rfl⟩
    exact ⟨a, [], rfl, rfl, rfl, rfl⟩

@[simp] theorem lasts_pass_bind {nanos : Nat} {f : Unit → Dialogue S β} {r : Except Crash β} :
    ((pass nanos).bind f).Lasts start t finish r ↔ (f ()).Lasts (start + nanos) t finish r := by
  unfold pass
  split
  next h =>
    subst h
    exact Iff.rfl
  next => exact Iff.rfl

/-! ## Times -/

theorem Lasts.le {p : Dialogue S α} {r : Except Crash α} (h : p.Lasts start t finish r) : start ≤ finish := by
  induction p generalizing start t with
  | done | crash => exact Nat.le_of_eq h.2.1.symm
  | wait idle nanos k ih => exact Nat.le_of_add_right_le (ih () h)
  | ask q k ih =>
    obtain ⟨a, u, _, hu⟩ := h
    exact ih a hu

theorem Lasts.mem_times {p : Dialogue S α} {r : Except Crash α} (h : p.Lasts start t finish r) {m : Dated S}
    (hm : m ∈ t) : start ≤ m.time ∧ m.time ≤ finish := by
  induction p generalizing start t with
  | done | crash =>
    rw [h.1] at hm
    cases hm
  | wait idle nanos k ih =>
    obtain ⟨hstart, hfinish⟩ := ih () h hm
    exact ⟨Nat.le_of_add_right_le hstart, hfinish⟩
  | ask q k ih =>
    obtain ⟨a, u, rfl, hu⟩ := h
    rcases List.mem_cons.1 hm with rfl | hm
    · exact ⟨Nat.le_refl start, hu.le⟩
    · exact ih a hu hm

theorem Lasts.sorted {p : Dialogue S α} {r : Except Crash α} (h : p.Lasts start t finish r) :
    t.Pairwise fun m n => m.time ≤ n.time := by
  induction p generalizing start t with
  | done | crash =>
    rw [h.1]
    exact .nil
  | wait idle nanos k ih => exact ih () h
  | ask q k ih =>
    obtain ⟨a, u, rfl, hu⟩ := h
    exact List.pairwise_cons.2 ⟨fun m hm => (hu.mem_times hm).1, ih a hu⟩

/-! ## Courses without times -/

/-- The courses are those that have their times left out. -/
theorem takes_iff_lasts {p : Dialogue S α} {es : List (Event S)} {r : Except Crash α} (start : Nat) :
    p.Takes es r ↔ ∃ t finish, p.Lasts start t finish r ∧ t.map Dated.event = es := by
  induction p generalizing start es with
  | done | crash =>
    constructor
    · rintro ⟨rfl, rfl⟩
      exact ⟨[], start, ⟨rfl, rfl, rfl⟩, rfl⟩
    · rintro ⟨t, finish, ⟨rfl, rfl, rfl⟩, rfl⟩
      exact ⟨rfl, rfl⟩
  | wait idle nanos k ih => exact ih () (start + nanos)
  | ask q k ih =>
    constructor
    · rintro ⟨a, u, rfl, hu⟩
      obtain ⟨t, finish, ht, rfl⟩ := (ih a start).1 hu
      exact ⟨⟨start, q, a⟩ :: t, finish, ⟨a, t, rfl, ht⟩, rfl⟩
    · rintro ⟨_, finish, ⟨a, t, rfl, ht⟩, rfl⟩
      exact ⟨a, t.map Dated.event, rfl, (ih a start).2 ⟨t, finish, ht, rfl⟩⟩

theorem Lasts.takes {p : Dialogue S α} {r : Except Crash α} (h : p.Lasts start t finish r) :
    p.Takes (t.map Dated.event) r :=
  (takes_iff_lasts start).2 ⟨t, finish, h, rfl⟩

theorem LastsSoFar.begins {p : Dialogue S α} (h : p.LastsSoFar start t) : p.Begins (t.map Dated.event) := by
  obtain ⟨u, finish, r, hu⟩ := h
  exact ⟨u.map Dated.event, r, by rw [← List.map_append]; exact hu.takes⟩

theorem AsksOnly.of_lasts {P : S.Question → Prop} {p : Dialogue S α} {r : Except Crash α} (h : p.AsksOnly P)
    (ht : p.Lasts start t finish r) : ∀ m ∈ t, P m.event.question :=
  fun _ hm => h _ _ ht.takes _ (List.mem_map_of_mem hm)

theorem AsksOnly.of_lastsSoFar {P : S.Question → Prop} {p : Dialogue S α} (h : p.AsksOnly P)
    (ht : p.LastsSoFar start t) : ∀ m ∈ t, P m.event.question := by
  obtain ⟨u, finish, r, hlasts⟩ := ht
  exact fun m hm => h.of_lasts hlasts m (List.mem_append_left u hm)

theorem exists_lasts (answers : ∀ q, Nonempty (S.Answer q)) (p : Dialogue S α) (start : Nat) :
    ∃ t finish r, p.Lasts start t finish r := by
  obtain ⟨es, r, hes⟩ := exists_takes answers p
  obtain ⟨t, finish, ht, _⟩ := (takes_iff_lasts start).1 hes
  exact ⟨t, finish, r, ht⟩

/-! ## Worlds with a clock -/

section
variable {pass : Nat → σ → σ} {answer : (q : S.Question) → σ → S.Answer q × σ} {clock : σ → Nat}

/-- A run in a world that has a clock takes the course of its transcript, with the times of that clock. -/
theorem lasts_trace (hpass : ∀ nanos s, clock (pass nanos s) = clock s + nanos)
    (hanswer : ∀ q s, clock (answer q s).2 = clock s) (p : Dialogue S α) (s : σ) :
    p.Lasts (clock s) ((p.trace pass answer s).map fun step => ⟨clock step.1, step.2⟩)
      (clock (p.run pass answer s).2) (p.run pass answer s).1 := by
  induction p generalizing s with
  | done | crash => exact ⟨rfl, rfl, rfl⟩
  | wait idle nanos k ih =>
    have hrest := ih () (pass nanos s)
    rw [hpass] at hrest
    exact hrest
  | ask q k ih =>
    have hrest := ih (answer q s).1 (answer q s).2
    rw [hanswer] at hrest
    exact ⟨_, _, rfl, hrest⟩

end

end Dialogue

namespace Attempt

open Dialogue

variable {S : Interface} {α β : Type} {start finish : Nat} {t : List (Dated S)}

def Lasts (x : Attempt S α) (start : Nat) (t : List (Dated S)) (finish : Nat) (r : Except Crash (Except Error α)) :
    Prop :=
  Dialogue.Lasts x.outcome start t finish r

theorem lasts_bind {x : Attempt S α} {f : α → Attempt S β} {r : Except Crash (Except Error β)} :
    (x >>= f).Lasts start t finish r ↔
      (∃ failure : Failure, x.Lasts start t finish failure.result ∧ r = failure.result) ∨
      ∃ a u v middle, t = u ++ v ∧ x.Lasts start u middle (.ok (.ok a)) ∧ (f a).Lasts middle v finish r := by
  have h : (x >>= f).Lasts start t finish r ↔
      (Dialogue.bind x.outcome (ExceptT.bindCont f)).Lasts start t finish r := Iff.rfl
  rw [h, Dialogue.lasts_bind]
  constructor
  · rintro (⟨c, hx, hr⟩ | ⟨e | a, u, v, middle, rfl, hx, hf⟩)
    · exact .inl ⟨.crash c, hx, hr⟩
    · obtain ⟨rfl, rfl, hr⟩ := hf
      exact .inl ⟨.error e, by rwa [List.append_nil], hr⟩
    · exact .inr ⟨a, u, v, middle, rfl, hx, hf⟩
  · rintro (⟨c | e, hx, hr⟩ | ⟨a, u, v, middle, rfl, hx, hf⟩)
    · exact .inl ⟨c, hx, hr⟩
    · exact .inr ⟨.error e, t, [], finish, (List.append_nil t).symm, hx, rfl, rfl, hr⟩
    · exact .inr ⟨.ok a, u, v, middle, rfl, hx, hf⟩

theorem lasts_ofDialogue_bind {p : Dialogue S α} {f : α → Attempt S β} {r : Except Crash (Except Error β)} :
    (ofDialogue p >>= f).Lasts start t finish r ↔
      (∃ c, p.Lasts start t finish (.error c) ∧ r = .error c) ∨
      ∃ a u v middle, t = u ++ v ∧ p.Lasts start u middle (.ok a) ∧ (f a).Lasts middle v finish r := by
  have h : (ofDialogue p >>= f).Lasts start t finish r ↔
      ((p.bind fun a => done (.ok a)).bind (ExceptT.bindCont f)).Lasts start t finish r := Iff.rfl
  rw [h, Dialogue.bind_assoc, Dialogue.lasts_bind]
  exact Iff.rfl

/-- What comes of a reply is its outcome, after the time that it takes. -/
theorem lasts_receive {reply : Reply α} {r : Except Crash (Except Error α)} :
    (reply.receive : Dialogue S (Except Error α)).Lasts start t finish r ↔
      t = [] ∧ finish = start + reply.nanos ∧ r = reply.outcome := by
  unfold Reply.receive Reply.await Dialogue.pass
  split
  next h =>
    rw [h]
    cases reply.outcome <;> exact Iff.rfl
  next => cases reply.outcome <;> exact Iff.rfl

end Attempt

end ReportRelay
