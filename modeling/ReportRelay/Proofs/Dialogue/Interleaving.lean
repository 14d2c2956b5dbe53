import Mathlib.Data.List.Forall2
import ReportRelay.Dialogue.Together
import ReportRelay.Proofs.Dialogue.Clock

/-!
# Courses of dialogues side by side

Whatever the clock says about who moves next, a course of dialogues side by side interleaves courses of each of
them. All of them come to their ends unless one crashes, which stops the others where they are.
-/

namespace ReportRelay

variable {α β : Type}

/-- The third list is made of the first two, each in its own order. -/
inductive Interleave : List α → List α → List α → Prop
  | nil : Interleave [] [] []
  | left {a : α} {u v t : List α} (h : Interleave u v t) : Interleave (a :: u) v (a :: t)
  | right {a : α} {u v t : List α} (h : Interleave u v t) : Interleave u (a :: v) (a :: t)

namespace Interleave

variable {u v t : List α}

theorem nil_left (v : List α) : Interleave [] v v := by
  induction v with
  | nil => exact .nil
  | cons a v ih => exact ih.right

theorem eq_left (h : Interleave u [] t) : u = t := by
  induction t generalizing u with
  | nil =>
    cases h
    rfl
  | cons a t ih =>
    cases h with
    | left h => rw [ih h]

theorem symm (h : Interleave u v t) : Interleave v u t := by
  induction h with
  | nil => exact .nil
  | left _ ih => exact ih.right
  | right _ ih => exact ih.left

theorem append (u v : List α) : Interleave u v (u ++ v) := by
  induction u with
  | nil => exact .nil_left v
  | cons a u ih => exact ih.left

theorem append_right (w : List α) (h : Interleave u v t) : Interleave u (w ++ v) (w ++ t) := by
  induction w with
  | nil => exact h
  | cons a w ih => exact ih.right

theorem sublist_left (h : Interleave u v t) : u.Sublist t := by
  induction h with
  | nil => exact .slnil
  | left _ ih => exact ih.cons_cons _
  | right _ ih => exact ih.cons _

theorem map {β : Type} (f : α → β) (h : Interleave u v t) : Interleave (u.map f) (v.map f) (t.map f) := by
  induction h with
  | nil => exact .nil
  | left _ ih => exact ih.left
  | right _ ih => exact ih.right

theorem filterMap {β : Type} (f : α → Option β) (h : Interleave u v t) :
    Interleave (u.filterMap f) (v.filterMap f) (t.filterMap f) := by
  induction h with
  | nil => exact .nil
  | @left a _ _ _ _ ih =>
    rw [List.filterMap_cons, List.filterMap_cons]
    cases f a with
    | none => exact ih
    | some b => exact ih.left
  | @right a _ _ _ _ ih =>
    rw [List.filterMap_cons, List.filterMap_cons]
    cases f a with
    | none => exact ih
    | some b => exact ih.right

theorem perm (h : Interleave u v t) : t.Perm (u ++ v) := by
  induction h with
  | nil => exact .nil
  | left _ ih => exact ih.cons _
  | right _ ih => exact (ih.cons _).trans List.perm_middle.symm

theorem filter (keep : α → Bool) (h : Interleave u v t) :
    Interleave (u.filter keep) (v.filter keep) (t.filter keep) := by
  induction h with
  | nil => exact .nil
  | @left a _ _ _ _ ih =>
    rw [List.filter_cons, List.filter_cons]
    split_ifs
    · exact ih.left
    · exact ih
  | @right a _ _ _ _ ih =>
    rw [List.filter_cons, List.filter_cons]
    split_ifs
    · exact ih.right
    · exact ih

theorem exists_of_right {u v w x t : List α} (h : Interleave u v t) (hv : Interleave w x v) :
    ∃ y, Interleave u x y ∧ Interleave w y t := by
  induction h generalizing w x with
  | nil => cases hv; exact ⟨[], .nil, .nil⟩
  | left h ih =>
    obtain ⟨y, hy, ht⟩ := ih hv
    exact ⟨_, hy.left, ht.right⟩
  | right h ih =>
    cases hv with
    | left hv =>
      obtain ⟨y, hy, ht⟩ := ih hv
      exact ⟨y, hy, ht.left⟩
    | right hv =>
      obtain ⟨y, hy, ht⟩ := ih hv
      exact ⟨_, hy.right, ht.right⟩

theorem exists_of_left {u v w x t : List α} (h : Interleave u v t) (hu : Interleave w x u) :
    ∃ y, Interleave x v y ∧ Interleave w y t := by
  obtain ⟨y, hy, ht⟩ := h.symm.exists_of_right hu
  exact ⟨y, hy.symm, ht⟩

/-- Where the third list is split, the first two are split as well. -/
theorem exists_of_split {u v t w : List α} (h : Interleave u v (t ++ w)) : ∃ u₁ u₂ v₁ v₂,
    u = u₁ ++ u₂ ∧ v = v₁ ++ v₂ ∧ Interleave u₁ v₁ t ∧ Interleave u₂ v₂ w := by
  induction t generalizing u v with
  | nil => exact ⟨[], u, [], v, rfl, rfl, .nil, h⟩
  | cons a t ih =>
    cases h with
    | left h =>
      obtain ⟨u₁, u₂, v₁, v₂, rfl, rfl, ht, hw⟩ := ih h
      exact ⟨a :: u₁, u₂, v₁, v₂, rfl, rfl, ht.left, hw⟩
    | right h =>
      obtain ⟨u₁, u₂, v₁, v₂, rfl, rfl, ht, hw⟩ := ih h
      exact ⟨u₁, u₂, a :: v₁, v₂, rfl, rfl, ht.right, hw⟩

/-- What comes from the first list splits it where it splits the third. -/
theorem exists_of_split_at {a : α} {u v t w : List α} (h : Interleave u v (t ++ a :: w)) (ha : a ∉ v) :
    ∃ u₁ u₂ v₁ v₂, u = u₁ ++ a :: u₂ ∧ v = v₁ ++ v₂ ∧ Interleave u₁ v₁ t := by
  obtain ⟨u₁, u₂, v₁, v₂, rfl, rfl, ht, hw⟩ := h.exists_of_split
  cases hw with
  | @left _ u₂ => exact ⟨u₁, u₂, v₁, v₂, rfl, rfl, ht⟩
  | right => exact absurd (List.mem_append_right _ List.mem_cons_self) ha

/-- Where the first list is split, the third and the second are split as well. -/
theorem exists_of_left_append {a : α} {u₁ u₂ v t : List α} (h : Interleave (u₁ ++ a :: u₂) v t) :
    ∃ t₁ t₂ v₁ v₂, t = t₁ ++ a :: t₂ ∧ v = v₁ ++ v₂ ∧ Interleave u₁ v₁ t₁ := by
  generalize hu : u₁ ++ a :: u₂ = u at h
  induction h generalizing u₁ with
  | nil => simp at hu
  | @left b u v t h ih =>
    cases u₁ with
    | nil =>
      obtain ⟨rfl, rfl⟩ := List.cons.inj hu
      exact ⟨[], t, [], v, rfl, rfl, .nil⟩
    | cons c u₁ =>
      obtain ⟨rfl, hrest⟩ := List.cons.inj hu
      obtain ⟨t₁, t₂, v₁, v₂, rfl, rfl, ht⟩ := ih hrest
      exact ⟨c :: t₁, t₂, v₁, v₂, rfl, rfl, ht.left⟩
  | @right b u v t h ih =>
    obtain ⟨t₁, t₂, v₁, v₂, rfl, rfl, ht⟩ := ih hu
    exact ⟨b :: t₁, t₂, b :: v₁, v₂, rfl, rfl, ht.right⟩

/-- What a beginning of the third list is made of begins the first two. -/
theorem exists_of_append {u v t w : List α} (h : Interleave u v (t ++ w)) :
    ∃ u' v', u' <+: u ∧ v' <+: v ∧ Interleave u' v' t := by
  obtain ⟨u₁, u₂, v₁, v₂, rfl, rfl, ht, _⟩ := h.exists_of_split
  exact ⟨u₁, v₁, List.prefix_append _ _, List.prefix_append _ _, ht⟩

end Interleave

/-- The list is made of the given ones, each in its own order. -/
def Merge : List (List α) → List α → Prop
  | [], t => t = []
  | u :: us, t => ∃ v, Merge us v ∧ Interleave u v t

namespace Merge

variable {u t : List α} {us : List (List α)}

theorem perm (h : Merge us t) : t.Perm us.flatten := by
  induction us generalizing t with
  | nil => cases h; exact .nil
  | cons u us ih =>
    obtain ⟨v, hv, ht⟩ := h
    exact ht.perm.trans ((ih hv).append_left u)

theorem mem_iff (h : Merge us t) {a : α} : a ∈ t ↔ ∃ u ∈ us, a ∈ u := by
  rw [h.perm.mem_iff, List.mem_flatten]

theorem filter (keep : α → Bool) (h : Merge us t) : Merge (us.map (List.filter keep)) (t.filter keep) := by
  induction us generalizing t with
  | nil =>
    cases h
    rfl
  | cons u us ih =>
    obtain ⟨v, hv, ht⟩ := h
    exact ⟨v.filter keep, ih hv, ht.filter keep⟩

theorem exists_interleave {us₁ us₂ : List (List α)} (h : Merge (us₁ ++ u :: us₂) t) :
    ∃ v, Merge (us₁ ++ us₂) v ∧ Interleave u v t := by
  induction us₁ generalizing t with
  | nil => exact h
  | cons w us₁ ih =>
    obtain ⟨v, hv, ht⟩ := h
    obtain ⟨x, hx, hu⟩ := ih hv
    obtain ⟨y, hy, huy⟩ := ht.exists_of_right hu
    exact ⟨y, ⟨x, hx, hy⟩, huy⟩

theorem sublist (h : Merge us t) (hu : u ∈ us) : u.Sublist t := by
  obtain ⟨us₁, us₂, rfl⟩ := List.append_of_mem hu
  obtain ⟨v, _, ht⟩ := h.exists_interleave
  exact ht.sublist_left

theorem exists_of_append {w : List α} (h : Merge us (t ++ w)) :
    ∃ us', List.Forall₂ (· <+: ·) us' us ∧ Merge us' t := by
  induction us generalizing t w with
  | nil =>
    obtain ⟨rfl, rfl⟩ := List.append_eq_nil_iff.1 h
    exact ⟨[], .nil, rfl⟩
  | cons u us ih =>
    obtain ⟨v, hv, ht⟩ := h
    obtain ⟨u', v', hu, ⟨x, rfl⟩, ht'⟩ := ht.exists_of_append
    obtain ⟨us', hus, hv'⟩ := ih hv
    exact ⟨u' :: us', .cons hu hus, v', hv', ht'⟩

end Merge

/-- A list that is paired with another one can be split at the partner of any element there. -/
theorem exists_split_of_mem {R : α → β → Prop} {as : List α} {bs : List β} {b : β}
    (h : List.Forall₂ R as bs) (hb : b ∈ bs) :
    ∃ a as₁ as₂ bs₁ bs₂, as = as₁ ++ a :: as₂ ∧ bs = bs₁ ++ b :: bs₂ ∧ R a b ∧
      List.Forall₂ R as₁ bs₁ ∧ List.Forall₂ R as₂ bs₂ := by
  induction h with
  | nil => cases hb
  | @cons a b' as bs hab hrest ih =>
    rcases List.mem_cons.1 hb with rfl | hb
    · exact ⟨a, [], as, [], bs, rfl, rfl, hab, .nil, hrest⟩
    · obtain ⟨c, as₁, as₂, bs₁, bs₂, rfl, rfl, hc, h₁, h₂⟩ := ih hb
      exact ⟨c, a :: as₁, as₂, b' :: bs₁, bs₂, rfl, rfl, hc, .cons hab h₁, h₂⟩

namespace Dialogue

variable {S : Interface}

section
variable {start finish : Nat} {t : List (Dated S)}

/-- After these events the dialogue goes on as another one does, or ends sooner. -/
def GoesOnAs (p : Dialogue S α) (own : Nat) (front : List (Dated S)) (q : Dialogue S α) (other : Nat) : Prop :=
  ∀ u e r, q.Lasts other u e r → ∃ e' ≤ e, p.Lasts own (front ++ u) e' r

section
variable {p q : Dialogue S α} {own other : Nat} {front : List (Dated S)}

theorem GoesOnAs.of_eq (h : own = other) : p.GoesOnAs own [] p other := by
  subst h
  exact fun _ e _ hp => ⟨e, Nat.le_refl e, hp⟩

theorem GoesOnAs.lasts {r : Except Crash α} (h : p.GoesOnAs own front q other)
    (hq : ∃ e ≤ finish, q.Lasts other t e r) : ∃ e ≤ finish, p.Lasts own (front ++ t) e r := by
  obtain ⟨e, he, hlasts⟩ := hq
  obtain ⟨e', he', hlasts'⟩ := h t e r hlasts
  exact ⟨e', Nat.le_trans he' he, hlasts'⟩

theorem GoesOnAs.lastsSoFar (h : p.GoesOnAs own front q other) (hq : q.LastsSoFar other t) :
    p.LastsSoFar own (front ++ t) := by
  obtain ⟨u, e, r, hlasts⟩ := hq
  obtain ⟨e', _, hlasts'⟩ := h _ e r hlasts
  exact ⟨u, e', r, by rwa [List.append_assoc]⟩

theorem GoesOnAs.begun (h : p.GoesOnAs own front q other) (answers : ∀ q, Nonempty (S.Answer q)) :
    p.LastsSoFar own front := by
  obtain ⟨u, e, r, hlasts⟩ := exists_lasts answers q other
  obtain ⟨e', _, hlasts'⟩ := h u e r hlasts
  exact ⟨u, e', r, hlasts'⟩

end

/-- What the second dialogue asks before the first one moves, which it does at its time. -/
theorem lasts_moves {change : Bool → Bool} {first : Bool → Nat → Dialogue S β → Dialogue S α}
    {leads : Bool} {own other : Nat} {q : Dialogue S β} {r : Except Crash α}
    (h : (moves change first leads own other q).Lasts start t finish r) :
    (∃ u v q' lead left, t = u ++ v ∧ (first lead left q').Lasts (start + own) v finish r ∧
      q.GoesOnAs (start + other) u q' (start + own + left)) ∨
    ∃ c, r = .error c ∧ q.Lasts (start + other) t finish (.error c) := by
  induction q generalizing start leads own other t with
  | done b =>
    rw [moves] at h
    generalize (if 0 < min own other then change leads else leads) = lead at h
    split at h
    next =>
      exact .inl ⟨[], t, done b, _, _, rfl, lasts_pass_bind.1 h, .of_eq (by omega)⟩
    next =>
      refine .inl ⟨[], t, done b, _, _, rfl, lasts_pass_bind.1 h, fun w e s hw => ?_⟩
      obtain ⟨rfl, rfl, rfl⟩ := hw
      exact ⟨start + other, by omega, rfl, rfl, rfl⟩
  | crash c =>
    rw [moves] at h
    generalize (if 0 < min own other then change leads else leads) = lead at h
    split at h
    next =>
      exact .inl ⟨[], t, crash c, _, _, rfl, lasts_pass_bind.1 h, .of_eq (by omega)⟩
    next =>
      obtain ⟨rfl, rfl, rfl⟩ := lasts_pass_bind.1 h
      exact .inr ⟨c, rfl, rfl, rfl, rfl⟩
  | wait idle nanos k ih =>
    rw [moves] at h
    generalize (if 0 < min own other then change leads else leads) = lead at h
    split at h
    next =>
      exact .inl ⟨[], t, wait idle nanos k, _, _, rfl, lasts_pass_bind.1 h, .of_eq (by omega)⟩
    next =>
      have hrest := ih () (lasts_pass_bind.1 h)
      rwa [show start + other + (own - other) = start + own by omega] at hrest
  | ask q k ih =>
    rw [moves] at h
    generalize (if 0 < min own other then change leads else leads) = lead at h
    split at h
    next =>
      exact .inl ⟨[], t, ask q k, _, _, rfl, lasts_pass_bind.1 h, .of_eq (by omega)⟩
    next =>
      obtain ⟨a, u, rfl, hu⟩ := lasts_pass_bind.1 h
      have hrest := ih a hu
      rw [show start + other + (own - other) = start + own by omega, Nat.add_zero] at hrest
      rcases hrest with ⟨v, w, q', lead, left, rfl, hw, hq⟩ | ⟨c, rfl, hc⟩
      · refine .inl ⟨⟨_, q, a⟩ :: v, w, q', lead, left, rfl, hw, fun x e s hx => ?_⟩
        obtain ⟨e', he, hrest⟩ := hq x e s hx
        exact ⟨e', he, a, v ++ x, rfl, hrest⟩
      · exact .inr ⟨c, rfl, a, u, rfl, hc⟩

/-- How a course of two dialogues side by side is made, of which each was begun at its time: both come to their ends,
or one of them crashes and the other one has only begun. -/
def BesideAt (p : Dialogue S α) (own : Nat) (q : Dialogue S β) (other : Nat) (t : List (Dated S)) (finish : Nat)
    (r : Except Crash (α × β)) : Prop :=
  ∃ u v, Interleave u v t ∧
    ((∃ a b, r = .ok (a, b) ∧ (∃ e ≤ finish, p.Lasts own u e (.ok a)) ∧
        ∃ e ≤ finish, q.Lasts other v e (.ok b)) ∨
      ∃ c, r = .error c ∧
        ((∃ e ≤ finish, p.Lasts own u e (.error c)) ∧ q.LastsSoFar other v ∨
          p.LastsSoFar own u ∧ ∃ e ≤ finish, q.Lasts other v e (.error c)))

/-- Dialogues that go on as others that are side by side are so too. -/
theorem BesideAt.of_goesOnAs {p p' : Dialogue S α} {q q' : Dialogue S β} {own own' other other' : Nat}
    {t' front front' : List (Dated S)} {r : Except Crash (α × β)} (h : BesideAt p' own' q' other' t' finish r)
    (hp : p.GoesOnAs own front p' own') (hq : q.GoesOnAs other front' q' other')
    (made : ∀ u v, Interleave u v t' → Interleave (front ++ u) (front' ++ v) t) :
    BesideAt p own q other t finish r := by
  obtain ⟨u, v, huv, hend⟩ := h
  refine ⟨front ++ u, front' ++ v, made u v huv, ?_⟩
  rcases hend with ⟨a, b, hr, hu, hv⟩ | ⟨c, hr, ⟨hu, hv⟩ | ⟨hu, hv⟩⟩
  · exact .inl ⟨a, b, hr, hp.lasts hu, hq.lasts hv⟩
  · exact .inr ⟨c, hr, .inl ⟨hp.lasts hu, hq.lastsSoFar hv⟩⟩
  · exact .inr ⟨c, hr, .inr ⟨hp.lastsSoFar hu, hq.lasts hv⟩⟩

/-- Each of two dialogues side by side goes by its own times. -/
theorem besideAt_of_lasts_together (answers : ∀ q, Nonempty (S.Answer q)) {change : Bool → Bool}
    {p : Dialogue S α} {leads : Bool} {own other : Nat} {q : Dialogue S β}
    {r : Except Crash (α × β)} (h : (together change p leads own other q).Lasts start t finish r) :
    BesideAt p (start + own) q (start + other) t finish r := by
  have crashed {p : Dialogue S α} {q : Dialogue S β} {t : List (Dated S)} {own other : Nat} (c : Crash)
      (hr : r = .error c) (hq : q.Lasts other t finish (.error c)) : BesideAt p own q other t finish r :=
    ⟨[], t, .nil_left t, .inr ⟨c, hr, .inr ⟨(GoesOnAs.of_eq rfl).begun answers, finish, Nat.le_refl _, hq⟩⟩⟩
  -- The second dialogue goes on until the first one moves, unless it crashes before.
  induction p generalizing start leads own other q t with
  | done a =>
    unfold together at h
    rcases lasts_moves h with ⟨u, v, q', lead, left, rfl, hv, hq⟩ | ⟨c, hr, hc⟩
    · rcases lasts_bind.1 (lasts_pass_bind.1 hv) with ⟨c, hc, rfl⟩ | ⟨b, w, x, middle, rfl, hw, rfl, rfl, rfl⟩
      · exact ⟨[], u ++ v, .nil_left _, .inr ⟨c, rfl, .inr ⟨(GoesOnAs.of_eq rfl).begun answers, hq v _ _ hc⟩⟩⟩
      · rw [List.append_nil]
        refine ⟨[], u ++ w, .nil_left _, .inl ⟨a, b, rfl, ⟨start + own, ?_, rfl, rfl, rfl⟩, hq w _ _ hw⟩⟩
        exact Nat.le_of_add_right_le hw.le
    · exact crashed c hr hc
  | crash c =>
    unfold together at h
    rcases lasts_moves h with ⟨u, v, q', lead, left, rfl, ⟨rfl, rfl, rfl⟩, hq⟩ | ⟨c, hr, hc⟩
    · rw [List.append_nil]
      refine ⟨[], u, .nil_left u, .inr ⟨c, rfl, .inl ⟨?_, hq.begun answers⟩⟩⟩
      exact ⟨start + own, Nat.le_refl _, rfl, rfl, rfl⟩
    · exact crashed c hr hc
  | wait idle nanos k ih =>
    unfold together at h
    rcases lasts_moves h with ⟨u, v, q', lead, left, rfl, hv, hq⟩ | ⟨c, hr, hc⟩
    · have hwaited : (wait idle nanos k).GoesOnAs (start + own) [] (k ()) (start + own + nanos) :=
        fun _ e _ hw => ⟨e, Nat.le_refl e, hw⟩
      exact (ih () hv).of_goesOnAs hwaited hq fun _ _ huv => huv.append_right u
    · exact crashed c hr hc
  | ask s k ih =>
    unfold together at h
    rcases lasts_moves h with ⟨u, _, q', lead, left, rfl, ⟨a, v, rfl, hv⟩, hq⟩ | ⟨c, hr, hc⟩
    · have hasked : (ask s k).GoesOnAs (start + own) [⟨start + own, s, a⟩] (k a) (start + own) :=
        fun w e _ hw => ⟨e, Nat.le_refl e, a, w, rfl, hw⟩
      exact (ih a hv).of_goesOnAs hasked hq fun _ _ huv => huv.left.append_right u
    · exact crashed c hr hc

end

variable {t : List (Event S)}

def Beside (p : Dialogue S α) (q : Dialogue S β) (t : List (Event S))
    (r : Except Crash (α × β)) : Prop :=
  ∃ u v, Interleave u v t ∧
    ((∃ a b, r = .ok (a, b) ∧ p.Takes u (.ok a) ∧ q.Takes v (.ok b)) ∨
      ∃ c, r = .error c ∧
        (p.Takes u (.error c) ∧ q.Begins v ∨ p.Begins u ∧ q.Takes v (.error c)))

theorem beside_of_takes_together (answers : ∀ q, Nonempty (S.Answer q)) {change : Bool → Bool}
    {p : Dialogue S α} {leads : Bool} {own other : Nat} {q : Dialogue S β}
    {r : Except Crash (α × β)} (h : (together change p leads own other q).Takes t r) :
    Beside p q t r := by
  obtain ⟨dated, finish, hdated, rfl⟩ := (takes_iff_lasts 0).1 h
  obtain ⟨u, v, huv, hend⟩ := besideAt_of_lasts_together answers hdated
  refine ⟨_, _, huv.map Dated.event, ?_⟩
  rcases hend with ⟨a, b, hr, ⟨_, _, hu⟩, _, _, hv⟩ | ⟨c, hr, ⟨⟨_, _, hu⟩, hv⟩ | ⟨hu, _, _, hv⟩⟩
  · exact .inl ⟨a, b, hr, hu.takes, hv.takes⟩
  · exact .inr ⟨c, hr, .inl ⟨hu.takes, hv.begins⟩⟩
  · exact .inr ⟨c, hr, .inr ⟨hu.begins, hv.takes⟩⟩

theorem begun_of_prefix {c : Crash} {ps : List (Dialogue S Unit)} {us vs : List (List (Event S))}
    {P : Dialogue S Unit → List (Event S) → Prop}
    (h : List.Forall₂ (fun p u => p.Begins u ∧ P p u) ps us) (hv : List.Forall₂ (· <+: ·) vs us) :
    List.Forall₂ (fun p v => p.Begins v ∧
      ((.error c : Except Crash Unit) = .ok () → p.Takes v (.ok ()))) ps vs := by
  induction h generalizing vs with
  | nil => cases hv; exact .nil
  | cons hp _ ih =>
    cases hv with
    | cons hpre hv =>
      obtain ⟨w, rfl⟩ := hpre
      obtain ⟨x, r, hx⟩ := hp.1
      exact .cons ⟨⟨w ++ x, r, by rwa [← List.append_assoc]⟩, nofun⟩ (ih hv)

/-- A course of several dialogues merges one of each. Either all of them come to their ends, or one crashes
and the others have begun. -/
theorem exists_merge_of_takes_all (answers : ∀ q, Nonempty (S.Answer q))
    {ps : List (Dialogue S Unit)} {r : Except Crash Unit} (h : (all ps).Takes t r) :
    ∃ us, Merge us t ∧
      List.Forall₂ (fun p u => p.Begins u ∧ (r = .ok () → p.Takes u (.ok ()))) ps us ∧
      ∀ c, r = .error c → ∃ p ∈ ps, ∃ u ∈ us, p.Takes u (.error c) := by
  induction ps generalizing t r with
  | nil =>
    obtain ⟨rfl, rfl⟩ := h
    exact ⟨[], rfl, .nil, nofun⟩
  | cons p ps ih =>
    obtain ⟨u, v, huv, hr⟩ : ∃ u v, Interleave u v t ∧
        ((r = .ok () ∧ p.Takes u (.ok ()) ∧ (all ps).Takes v (.ok ())) ∨
          ∃ c, r = .error c ∧ (p.Takes u (.error c) ∧ (all ps).Begins v ∨
            p.Begins u ∧ (all ps).Takes v (.error c))) := by
      rcases takes_bind.1 h with ⟨c, hc, rfl⟩ | ⟨_, t, _, rfl, ht, rfl, rfl⟩
      · obtain ⟨u, v, huv, ⟨_, _, hr, _⟩ | ⟨_, hr, hend⟩⟩ := beside_of_takes_together answers hc
        · cases hr
        · cases hr
          exact ⟨u, v, huv, .inr ⟨c, rfl, hend⟩⟩
      · rw [List.append_nil]
        obtain ⟨u, v, huv, ⟨_, _, _, hu, hv⟩ | ⟨_, hr, _⟩⟩ := beside_of_takes_together answers ht
        · exact ⟨u, v, huv, .inl ⟨rfl, hu, hv⟩⟩
        · cases hr
    rcases hr with ⟨rfl, hu, hv⟩ | ⟨c, rfl, ⟨hu, w, s, hw⟩ | ⟨hu, hv⟩⟩
    · obtain ⟨us, hus, hall, _⟩ := ih hv
      exact ⟨u :: us, ⟨v, hus, huv⟩, .cons ⟨hu.begins, fun _ => hu⟩ hall, nofun⟩
    · obtain ⟨us, hus, hall, _⟩ := ih hw
      obtain ⟨us', hbegun, hv⟩ := hus.exists_of_append
      refine ⟨u :: us', ⟨v, hv, huv⟩, .cons ⟨hu.begins, nofun⟩ ?_, fun c' hc => ?_⟩
      · exact begun_of_prefix hall hbegun
      · cases hc
        exact ⟨p, List.mem_cons_self, u, List.mem_cons_self, hu⟩
    · obtain ⟨us, hus, hall, hcrash⟩ := ih hv
      refine ⟨u :: us, ⟨v, hus, huv⟩, .cons ⟨hu, nofun⟩ ?_, fun c' hc => ?_⟩
      · exact hall.imp fun _ _ h => ⟨h.1, nofun⟩
      · obtain ⟨q, hq, w, hw, hcw⟩ := hcrash c' hc
        exact ⟨q, List.mem_cons_of_mem _ hq, w, List.mem_cons_of_mem _ hw, hcw⟩

end Dialogue

end ReportRelay
