import ReportRelay.Proofs.Dispatch.BatchCourse
import ReportRelay.Proofs.Dispatch.Selection

/-!
# One sender's part in a batch

When the client stays calm, a batch is a preparation, followed by the senders' dialogues side by side, each up to
its end. A sender's part is its own dialogue; whatever happens besides is made by other senders.
-/

namespace ReportRelay.Dispatch

variable {settings : Settings} {gasPrice : DecCoin} {batches : List SenderBatch} {sender : String}
  {t u v w : List (Event interface)}

/-! ## Calls -/

def isCallFor (sender : String) : Event interface → Bool
  | ⟨.client behalf _, _⟩ => behalf.sender = sender
  | _ => false

/-- The calls that are made for a sender. -/
def callsFor (sender : String) (t : List (Event interface)) : List (Event interface) :=
  t.filter (isCallFor sender)

@[simp] theorem callsFor_append : callsFor sender (u ++ v) = callsFor sender u ++ callsFor sender v :=
  List.filter_append u v

theorem callsFor_eq_nil (h : ∀ e ∈ t, isCallFor sender e = false) : callsFor sender t = [] :=
  List.filter_eq_nil_iff.2 fun e he => by simp [h e he]

@[simp] theorem callsFor_deeds : callsFor sender (deeds t) = callsFor sender t := by
  unfold callsFor deeds
  rw [List.filter_filter]
  refine List.filter_congr fun e _ => ?_
  obtain ⟨question, a⟩ := e
  cases question <;> simp [isCallFor, isDeed]

theorem SenderEvent.isCallFor_eq_false {behalf : Behalf} {e : Event interface} (h : SenderEvent behalf e)
    (hne : behalf.sender ≠ sender) : isCallFor sender e = false := by
  cases h with
  | plain plain =>
    cases plain with
    | call => exact decide_eq_false hne
    | errored => rfl
  | broadcast => exact decide_eq_false hne
  | broadcasted | confirmed => rfl

theorem Groundwork.isCallFor_eq_false {e : Event interface} (h : Groundwork e) : isCallFor sender e = false := by
  cases h <;> rfl

/-- Preparing a batch takes no calls. -/
theorem Prepares.callsFor_eq_nil {es : List (Event interface)} {r : Except Crash (Except Error (Option Plan))}
    (h : Prepares settings es r) : callsFor sender es = [] := by
  rcases h.groundwork with hgroundwork | ⟨fs, toPrices, rfl, hgroundwork, _⟩
  · exact Dispatch.callsFor_eq_nil fun e he => (hgroundwork e he).isCallFor_eq_false
  · rw [callsFor_append, Dispatch.callsFor_eq_nil fun e he => (hgroundwork e he).isCallFor_eq_false]
    rfl

/-! ## Parts -/

/-- A calm batch makes no plan, or makes one and carries it out to its end. -/
theorem takes_sendMsgBatch_calm {r : Except Crash (Except Error Unit)} (h : (sendMsgBatch settings).Takes t r)
    (hcalm : ∀ e ∈ t, CalmEvent e) :
    (∃ o, (prepare settings).Takes t o ∧ ∀ plan, o ≠ .ok (.ok (some plan))) ∨
      ∃ plan u w us, t = u ++ w ∧ (prepare settings).Takes u (.ok (.ok (some plan))) ∧ Merge us w ∧
        List.Forall₂ (fun batch x => (sendLogged settings plan.gasPrice batch).Takes x (.ok ()))
          plan.batches us := by
  rcases cases_of_sendMsgBatch h with hnone | ⟨plan, u, v, o, rfl, hu, hall⟩
  · exact .inl hnone
  · obtain ⟨us, hmerge, _, hends⟩ := exists_merge_of_sends hall
    exact .inr ⟨plan, u, v, us, rfl, hu, hmerge, hends fun e he => hcalm e (List.mem_append_right u he)⟩

/-- What is not a sender's own is logging, waiting, or another sender's. -/
def OfOthers (batches : List SenderBatch) (sender : String) (v : List (Event interface)) : Prop :=
  ∀ e ∈ deeds v, ∃ other ∈ batches, other.msgs.sender ≠ sender ∧ SenderEvent other.behalf e

theorem OfOthers.callsFor_eq_nil (h : OfOthers batches sender v) : callsFor sender v = [] := by
  rw [← callsFor_deeds]
  refine Dispatch.callsFor_eq_nil fun e he => ?_
  obtain ⟨other, _, hne, hevent⟩ := h e he
  exact hevent.isCallFor_eq_false hne

theorem senderEvent_of_takes {batch : SenderBatch} {r : Except Crash Unit}
    (h : (sendLogged settings gasPrice batch).Takes t r) : ∀ e ∈ deeds t, SenderEvent batch.behalf e := by
  obtain ⟨o, hcourse, _⟩ := takes_sendLogged h
  exact hcourse.event

section
variable {R : SenderBatch → List (Event interface) → Prop}
  (hevent : ∀ batch x, R batch x → ∀ e ∈ deeds x, SenderEvent batch.behalf e)
include hevent

theorem exists_sender_of_merge {us : List (List (Event interface))} (hmerge : Merge us w)
    (hall : List.Forall₂ R batches us) : ∀ e ∈ deeds w, ∃ batch ∈ batches, SenderEvent batch.behalf e := by
  intro e he
  obtain ⟨hmem, hdeed⟩ := List.mem_filter.1 he
  obtain ⟨x, hx, hex⟩ := hmerge.mem_iff.1 hmem
  obtain ⟨batch, _, _, _, _, rfl, _, hown, _⟩ := exists_split_of_mem hall hx
  exact ⟨batch, List.mem_append_right _ List.mem_cons_self,
    hevent batch x hown e (List.mem_filter.2 ⟨hex, hdeed⟩)⟩

/-- Out of what is made side by side, one sender's own part, if it has one, and what the others make. -/
theorem exists_part_of_merge {us : List (List (Event interface))}
    (hnodup : (batches.map fun batch => batch.msgs.sender).Nodup) (hmerge : Merge us w)
    (hall : List.Forall₂ R batches us) (sender : String) :
    ∃ u v, Interleave u v w ∧ OfOthers batches sender v ∧
      ((∃ batch ∈ batches, batch.msgs.sender = sender ∧ R batch u) ∨
        u = [] ∧ ∀ batch ∈ batches, batch.msgs.sender ≠ sender) := by
  have hothers {bs : List SenderBatch} {xs : List (List (Event interface))} {v : List (Event interface)}
      (hv : Merge xs v) (hall : List.Forall₂ R bs xs)
      (hsub : ∀ other ∈ bs, other ∈ batches ∧ other.msgs.sender ≠ sender) : OfOthers batches sender v := by
    intro e he
    obtain ⟨other, hother, hevent⟩ := exists_sender_of_merge hevent hv hall e he
    obtain ⟨hmem, hne⟩ := hsub other hother
    exact ⟨other, hmem, hne, hevent⟩
  by_cases hsome : ∃ batch ∈ batches, batch.msgs.sender = sender
  · obtain ⟨batch, hbatch, rfl⟩ := hsome
    obtain ⟨u, us₁, us₂, before, after, rfl, rfl, hown, hbefore, hafter⟩ := exists_split_of_mem hall.flip hbatch
    obtain ⟨v, hv, hinterleave⟩ := hmerge.exists_interleave
    refine ⟨u, v, hinterleave, hothers hv (List.rel_append hbefore.flip hafter.flip) fun other hother => ?_,
      .inl ⟨batch, hbatch, rfl, hown⟩⟩
    rw [List.map_append, List.map_cons] at hnodup
    have hnot := (List.nodup_cons.1 (List.nodup_middle.1 hnodup)).1
    rw [← List.map_append] at hnot
    refine ⟨?_, fun heq => hnot (List.mem_map.2 ⟨other, hother, heq⟩)⟩
    exact (List.Sublist.append_left (List.sublist_cons_self _ _) _).subset hother
  · have hnone : ∀ batch ∈ batches, batch.msgs.sender ≠ sender := fun batch hbatch heq => hsome ⟨batch, hbatch, heq⟩
    exact ⟨[], w, .nil_left w, hothers hmerge hall fun other hother => ⟨hother, hnone other hother⟩,
      .inr ⟨rfl, hnone⟩⟩

end

theorem exists_sender_of_ends {us : List (List (Event interface))} (hmerge : Merge us w)
    (hends : List.Forall₂ (fun batch x => (sendLogged settings gasPrice batch).Takes x (.ok ())) batches us) :
    ∀ e ∈ deeds w, ∃ batch ∈ batches, SenderEvent batch.behalf e :=
  exists_sender_of_merge (fun _ _ => senderEvent_of_takes) hmerge hends

theorem exists_part {us : List (List (Event interface))}
    (hnodup : (batches.map fun batch => batch.msgs.sender).Nodup) (hmerge : Merge us w)
    (hends : List.Forall₂ (fun batch x => (sendLogged settings gasPrice batch).Takes x (.ok ())) batches us)
    (sender : String) : ∃ u v, Interleave u v w ∧ OfOthers batches sender v ∧
      ((∃ batch ∈ batches, batch.msgs.sender = sender ∧
        (sendLogged settings gasPrice batch).Takes u (.ok ())) ∨
        u = [] ∧ ∀ batch ∈ batches, batch.msgs.sender ≠ sender) :=
  exists_part_of_merge (fun _ _ => senderEvent_of_takes) hnodup hmerge hends sender

/-! ## Parts that are cut off -/

/-- What a sender's dialogue has done by the time at which it ended or was taken down with the others. -/
def HasBegun (settings : Settings) (gasPrice : DecCoin) (batch : SenderBatch) (u : List (Event interface)) : Prop :=
  ∃ v r, SenderCourse settings gasPrice batch (deeds u ++ v) r

theorem HasBegun.event {batch : SenderBatch} (h : HasBegun settings gasPrice batch u) :
    ∀ e ∈ deeds u, SenderEvent batch.behalf e := by
  obtain ⟨v, r, hcourse⟩ := h
  exact fun e he => hcourse.event e (List.mem_append_left v he)

def HasEnded (settings : Settings) (gasPrice : DecCoin) (batch : SenderBatch) (u : List (Event interface)) : Prop :=
  ∃ r, SenderCourse settings gasPrice batch (deeds u) r

theorem HasEnded.hasBegun {batch : SenderBatch} (h : HasEnded settings gasPrice batch u) :
    HasBegun settings gasPrice batch u := by
  obtain ⟨r, hcourse⟩ := h
  exact ⟨[], r, by rwa [List.append_nil]⟩

theorem exists_parts_of_sends {r : Except Crash Unit}
    (h : (Dialogue.all (batches.map (sendLogged settings gasPrice))).Takes t r) :
    ∃ us, Merge us t ∧ List.Forall₂ (HasBegun settings gasPrice) batches us ∧
      ((∀ e ∈ t, CalmEvent e) → List.Forall₂ (HasEnded settings gasPrice) batches us) := by
  obtain ⟨us, hmerge, hbegun, hends⟩ := exists_merge_of_sends h
  refine ⟨us, hmerge, hbegun.imp fun batch u htakes => ?_, fun hcalm => (hends hcalm).imp fun batch u htakes => ?_⟩
  · obtain ⟨v, o, htakes⟩ := htakes
    obtain ⟨o', hcourse, _⟩ := takes_sendLogged htakes
    exact ⟨deeds v, o', by rwa [deeds_append] at hcourse⟩
  · obtain ⟨o, hcourse, _⟩ := takes_sendLogged htakes
    exact ⟨o, hcourse⟩

theorem callsFor_of_interleave (h : Interleave u v w) (hv : OfOthers batches sender v) :
    callsFor sender w = callsFor sender u := by
  have hfilter : Interleave (callsFor sender u) (callsFor sender v) (callsFor sender w) := h.filter _
  rw [hv.callsFor_eq_nil] at hfilter
  exact hfilter.eq_left.symm

end ReportRelay.Dispatch
