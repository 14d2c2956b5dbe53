import ReportRelay.Proofs.Contract.Joined

/-!
# Refreshes that overlap

Several refreshes of one cache may go on at the same time. What one of them writes into the cache it has read before,
and it writes to either part of the cache once at most.
-/

namespace ReportRelay.Contract.Cache

open Dialogue

variable {γ : Type} {address : String} {call start time : Nat} {cache : Cache} {m : Dated interface}
  {es fs u v w : List (Dated interface)}

/-! ## Calls -/

/-- Something that happened in one of several calls. -/
abbrev Called := Nat × Dated interface

def eventsOf (call : Nat) (history : List Called) : List (Dated interface) :=
  history.filterMap fun m => if m.1 = call then some m.2 else none

theorem eventsOf_append {history later : List Called} :
    eventsOf call (history ++ later) = eventsOf call history ++ eventsOf call later :=
  List.filterMap_append

theorem mem_eventsOf {history : List Called} : m ∈ eventsOf call history ↔ (call, m) ∈ history := by
  rw [eventsOf, List.mem_filterMap]
  constructor
  · rintro ⟨⟨other, n⟩, hmem, hsome⟩
    dsimp only at hsome
    split at hsome
    next h =>
      cases hsome
      cases h
      exact hmem
    next => cases hsome
  · exact fun hmem => ⟨(call, m), hmem, if_pos rfl⟩

theorem eventsOf_map : eventsOf call (es.map (call, ·)) = es := by
  rw [eventsOf, List.filterMap_map]
  have hall : ((fun m : Called => if m.1 = call then some m.2 else none) ∘ (call, ·)) = some :=
    funext fun _ => if_pos rfl
  rw [hall, List.filterMap_some]

theorem eventsOf_map_of_ne {other : Nat} (h : other ≠ call) : eventsOf call (es.map (other, ·)) = [] := by
  rw [eventsOf, List.filterMap_map]
  exact List.filterMap_eq_nil_iff.2 fun _ _ => if_neg h

/-- Calls of a refresh that overlap in any way, on a cache to which nothing else is done. Some may be calls of the poll
loop, whose ticks and logs are left out. -/
structure Overlapping (address : String) (cache : Cache) (history : List Called) : Prop where
  begun : ∀ call, ∃ start, (Cache.refresh address).outcome.LastsSoFar start (eventsOf call history)
  sorted : history.Pairwise fun m n => m.2.time ≤ n.2.time
  consistent : cache.Consistent (history.map Prod.snd)

/-! ## What is read before it is written -/

theorem eq_of_append_eq_cons {front : List γ} {a b : γ} {before after : List γ}
    (h : front ++ [a] = before ++ b :: after) (hb : b ∉ front) : before = front ∧ a = b := by
  induction front generalizing before with
  | nil =>
    cases before with
    | nil =>
      cases h
      exact ⟨rfl, rfl⟩
    | cons => exact absurd (List.cons.inj h).2.symm (List.append_ne_nil_of_right_ne_nil _ (List.cons_ne_nil _ _))
  | cons c front ih =>
    cases before with
    | nil => exact absurd (List.cons.inj h).1 (fun hc => hb (hc ▸ List.mem_cons_self))
    | cons d before =>
      obtain ⟨rfl, hrest⟩ := List.cons.inj h
      obtain ⟨rfl, rfl⟩ := ih hrest fun hmem => hb (List.mem_cons_of_mem _ hmem)
      exact ⟨rfl, rfl⟩

theorem course_of_putConfig {block : Nat} {config : ContractConfig}
    (h : (updateConfig address).outcome.LastsSoFar start (u ++ ⟨time, .putConfig block config, ()⟩ :: w)) :
    ∃ (reply : Reply Bytes) (details : ConfigDetails) (second : Reply (List TxResponse)),
      u = [detailsAsked address start reply, ⟨start + reply.nanos, .renew details, false⟩,
        searched address details.block (start + reply.nanos) second] ∧
      reply.comesTo detailsIn = .ok (.ok details) ∧ details.block = block ∧ start + reply.nanos ≤ time := by
  obtain ⟨x, finish, r, hlasts⟩ := h
  rw [List.append_assoc] at hlasts
  have hmem : ⟨time, .putConfig block config, ()⟩ ∈ u ++ (⟨time, .putConfig block config, ()⟩ :: w ++ x) :=
    List.mem_append_right _ List.mem_cons_self
  have hunwritten {reply : Reply Bytes} {details : ConfigDetails} {second : Reply (List TxResponse)} :
      ⟨time, .putConfig block config, ()⟩ ∉ [detailsAsked address start reply,
        ⟨start + reply.nanos, .renew details, false⟩, searched address details.block (start + reply.nanos) second] := by
    intro hmem
    rcases List.mem_cons.1 hmem with heq | hmem
    · cases heq
    rcases List.mem_cons.1 hmem with heq | hmem
    · cases heq
    cases List.mem_singleton.1 hmem
  generalize hlist : u ++ (_ :: w ++ x) = list at hlasts hmem
  -- The write is the last thing that this side does, so all that comes before it is known.
  cases configCourse_of_lasts hlasts with
  | unread => cases List.mem_singleton.1 hmem
  | current =>
    rcases List.mem_cons.1 hmem with heq | hmem
    · cases heq
    · cases List.mem_singleton.1 hmem
  | @outdated reply details _ _ _ said fetched =>
    cases fetched with
    | unfound => exact absurd hmem hunwritten
    | @found second config' found =>
      have hend : [detailsAsked address start reply, ⟨start + reply.nanos, .renew details, false⟩,
          searched address details.block (start + reply.nanos) second] ++ [_] = u ++ _ :: (w ++ x) := hlist.symm
      obtain ⟨rfl, heq⟩ := eq_of_append_eq_cons hend hunwritten
      cases heq
      exact ⟨reply, details, second, rfl, said, rfl, Nat.le_add_right _ _⟩

theorem course_of_putTransmission {transmission : Transmission}
    (h : (updateTransmission address).outcome.LastsSoFar start (v ++ ⟨time, .putTransmission transmission, ()⟩ :: w)) :
    ∃ t, v = t.map asked ∧ TransmissionRead address start t time transmission := by
  obtain ⟨x, finish, r, hlasts⟩ := h
  rw [List.append_assoc] at hlasts
  have hunwritten {t : List (Dated client)} : ⟨time, .putTransmission transmission, ()⟩ ∉ t.map asked := by
    intro hmem
    obtain ⟨_, _, heq⟩ := List.mem_map.1 hmem
    cases heq
  generalize hlist : v ++ (_ :: w ++ x) = list at hlasts
  cases transmissionCourse_of_lasts hlasts with
  | @unread t _ _ read => exact absurd (hlist ▸ List.mem_append_right _ List.mem_cons_self) hunwritten
  | @read t _ transmission' read =>
    obtain ⟨rfl, heq⟩ := eq_of_append_eq_cons hlist.symm hunwritten
    cases heq
    exact ⟨t, rfl, transmissionRead_of_lasts read⟩

/-! ## What is written -/

def blockWritten : interface.Question → Option Nat
  | .putConfig block _ => some block
  | .chain _ | .now | .renew _ | .putTransmission _ => none

def transmissionWritten : interface.Question → Option Transmission
  | .putTransmission transmission => some transmission
  | .chain _ | .now | .renew _ | .putConfig _ _ => none

theorem asksOnly_updateConfig :
    (updateConfig address).outcome.AsksOnly fun question => transmissionWritten question = none := by
  refine Attempt.asksOnly_bind (asksOnly_reading fun _ => rfl) fun details => ?_
  refine Attempt.asksOnly_bind (Attempt.asksOnly_ofDialogue (.question rfl)) fun
    | true => .done _
    | false => ?_
  exact Attempt.asksOnly_bind (asksOnly_reading fun _ => rfl) fun _ => Attempt.asksOnly_ofDialogue (.question rfl)

theorem asksOnly_updateTransmission :
    (updateTransmission address).outcome.AsksOnly fun question => blockWritten question = none :=
  Attempt.asksOnly_bind (asksOnly_reading fun _ => rfl) fun _ => Attempt.asksOnly_ofDialogue (.question rfl)

/-- The block that a call writes was reported to it before, and it writes none before that. -/
theorem exists_reported_of_blockWritten {block : Nat}
    (h : (Cache.refresh address).outcome.LastsSoFar start (es ++ m :: fs))
    (hm : blockWritten m.event.question = some block) : ∃ (reply : Reply Bytes) (details : ConfigDetails),
      detailsAsked address start reply ∈ es ∧ reply.comesTo detailsIn = .ok (.ok details) ∧ details.block = block ∧
        start + reply.nanos ≤ m.time ∧ ∀ n ∈ es, blockWritten n.event.question = none := by
  rw [refresh_eq_joined] at h
  obtain ⟨u, v, made, hu, hv⟩ := exists_begun_of_joined h
  have hother := asksOnly_updateTransmission.of_lastsSoFar hv
  have hnot : m ∉ v := fun hmem => by
    rw [hother m hmem] at hm
    cases hm
  obtain ⟨u₁, u₂, v₁, v₂, rfl, rfl, before⟩ := made.exists_of_split_at hnot
  obtain ⟨time, question, a⟩ := m
  cases question with
  | chain | now | renew | putTransmission => cases hm
  | putConfig block config =>
    cases hm
    obtain ⟨reply, details, second, rfl, said, hblock, hle⟩ := course_of_putConfig hu
    refine ⟨reply, details, before.sublist_left.subset List.mem_cons_self, said, hblock, hle, fun n hn => ?_⟩
    rcases List.mem_append.1 (before.perm.mem_iff.1 hn) with hn | hn
    · simp only [List.mem_cons, List.not_mem_nil, or_false] at hn
      rcases hn with rfl | rfl | rfl <;> rfl
    · exact hother n (List.mem_append_left _ hn)

/-- The transmission that a call writes was read before, and it writes none before that. -/
theorem exists_read_of_transmissionWritten {transmission : Transmission}
    (h : (Cache.refresh address).outcome.LastsSoFar start (es ++ m :: fs))
    (hm : transmissionWritten m.event.question = some transmission) : ∃ t : List (Dated client),
      (∀ n ∈ t, asked n ∈ es) ∧ TransmissionRead address start t m.time transmission ∧
        ∀ n ∈ es, transmissionWritten n.event.question = none := by
  rw [refresh_eq_joined] at h
  obtain ⟨u, v, made, hu, hv⟩ := exists_begun_of_joined h
  have hother := asksOnly_updateConfig.of_lastsSoFar hu
  have hnot : m ∉ u := fun hmem => by
    rw [hother m hmem] at hm
    cases hm
  obtain ⟨v₁, v₂, u₁, u₂, rfl, rfl, before⟩ := made.symm.exists_of_split_at hnot
  obtain ⟨time, question, a⟩ := m
  cases question with
  | chain | now | renew | putConfig => cases hm
  | putTransmission =>
    cases hm
    obtain ⟨t, rfl, hread⟩ := course_of_putTransmission hv
    refine ⟨t, fun n hn => before.sublist_left.subset (List.mem_map_of_mem hn), hread, fun n hn => ?_⟩
    rcases List.mem_append.1 (before.perm.mem_iff.1 hn) with hn | hn
    · obtain ⟨_, _, rfl⟩ := List.mem_map.1 hn
      rfl
    · exact hother n (List.mem_append_left _ hn)

end ReportRelay.Contract.Cache
