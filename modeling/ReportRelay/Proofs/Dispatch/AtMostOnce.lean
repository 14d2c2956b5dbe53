import ReportRelay.Proofs.Dispatch.CommandCourse
import ReportRelay.Proofs.Dispatch.Readiness

/-!
# Every message is broadcast at most once

A batch broadcasts only messages that are started, and when it is done each of them is spent. Since a spent message
never becomes started again, no later batch finds it, however many batches fail in between.
-/

namespace ReportRelay.Dispatch

variable {chainId : String} {s s' s'' : Store} {settings : Settings} {m : Makeup}
  {es w : List (Event interface)} {id : MsgId}

/-- The message is among those of a broadcast. -/
def sends (id : MsgId) (e : Event interface) : Bool :=
  (sent? e).any fun behalf => id ∈ behalf.ids

theorem sends_iff {e : Event interface} :
    sends id e = true ↔ ∃ behalf, sent? e = some behalf ∧ id ∈ behalf.ids := by
  simp [sends, Option.any_eq_true]

theorem isBroadcast_of_sends {e : Event interface} (h : sends id e = true) : isBroadcast e = true := by
  obtain ⟨behalf, hsent, _⟩ := sends_iff.1 h
  rw [isBroadcast, hsent]
  rfl

theorem SenderEvent.mem_of_sends {behalf : Behalf} {e : Event interface} (h : SenderEvent behalf e)
    (hsends : sends id e = true) : id ∈ behalf.ids := by
  obtain ⟨other, hsent, hid⟩ := sends_iff.1 hsends
  rwa [h.eq_of_sent? hsent] at hid

theorem countP_sends_eq_zero (h : ∀ e ∈ es, sends id e = false) : es.countP (sends id) = 0 :=
  List.countP_eq_zero.2 fun e he => by simp [h e he]

theorem countP_sends_of_none (h : ∀ e ∈ es, sent? e = none) : es.countP (sends id) = 0 :=
  countP_sends_eq_zero fun e he => by rw [sends, h e he, Option.any_none]

theorem countP_sends_deeds (t : List (Event interface)) :
    (deeds t).countP (sends id) = t.countP (sends id) := by
  unfold deeds
  rw [List.countP_filter]
  refine List.countP_congr fun e _ => ?_
  obtain ⟨question, a⟩ := e
  cases question <;> simp [sends, sent?, isDeed]

/-! ## One batch -/

/-- An event of a batch is one of a sender's course, and the others' courses move none of its messages. -/
theorem MadeUp.exists_course (h : MadeUp chainId settings m s s') {gasPrice : DecCoin}
    {us : List (List (Event interface))} (hmerge : Merge us w)
    (hcourses : List.Forall₂ (fun batch u => ∃ r, SenderCourse settings gasPrice batch u r) m.batches us)
    {e : Event interface} (he : e ∈ w) :
    ∃ batch ∈ m.batches, ∃ u v r, Interleave u v w ∧ e ∈ u ∧ SenderCourse settings gasPrice batch u r ∧
      ∀ e' ∈ v, ∃ other, SenderEvent other e' ∧ ∀ i ∈ other.ids, i ∉ batch.msgs.ids := by
  obtain ⟨u, hu, heu⟩ := hmerge.mem_iff.1 he
  obtain ⟨batch, before, after, us₁, us₂, hbatches, rfl, ⟨r, hcourse⟩, hbefore, hafter⟩ :=
    exists_split_of_mem hcourses hu
  obtain ⟨v, hv, hinterleave⟩ := hmerge.exists_interleave
  have hbatch : batch ∈ m.batches := by
    rw [hbatches]
    exact List.mem_append_right _ List.mem_cons_self
  refine ⟨batch, hbatch, u, v, r, hinterleave, heu, hcourse, fun e' he' => ?_⟩
  have hbegun : List.Forall₂ (fun batch u => ∃ v r, SenderCourse settings gasPrice batch (u ++ v) r)
      (before ++ after) (us₁ ++ us₂) := by
    refine (List.rel_append hbefore hafter).imp ?_
    exact fun _ x ⟨r, hx⟩ => ⟨[], r, by rwa [List.append_nil]⟩
  obtain ⟨other, hother, hevent⟩ := exists_sender hv hbegun e' he'
  exact ⟨other.behalf, hevent, fun i hi => h.distinct.not_mem_others h.parted hbatches hother hi⟩

/-- Within one batch a message is broadcast at most once. When it is, it was not spent before and is
spent afterwards. -/
theorem sent_once (id : MsgId) {gasPrice : DecCoin} {us : List (List (Event interface))}
    (hmade : MadeUp chainId settings m s s')
    (hstarts : Passes chainId s' (moves (starting m.batches) .started) s'') {later : Store}
    (hpass : Passes chainId s'' w later) (hcalm : ∀ e ∈ w, CalmEvent e) (hmerge : Merge us w)
    (hcourses : List.Forall₂ (fun batch u => ∃ r, SenderCourse settings gasPrice batch u r)
      m.batches us) :
    w.countP (sends id) = 0 ∨ w.countP (sends id) = 1 ∧ ¬s.Spent id ∧ later.Spent id := by
  by_cases hnone : ∀ e ∈ w, sends id e = false
  · exact .inl (countP_sends_eq_zero hnone)
  obtain ⟨e, he, hsends⟩ : ∃ e ∈ w, sends id e = true := by simpa using hnone
  obtain ⟨batch, hbatch, u, v, r, hinterleave, heu, hcourse, houtside⟩ := hmade.exists_course hmerge hcourses he
  have hid : id ∈ batch.msgs.ids := (hcourse.event e heu).mem_of_sends hsends
  have hstarted := hmade.allIn_started hstarts hbatch
  have hevolves := hmade.evolves.trans (evolves_of_passes hmade.evolves.lawful hstarts)
  refine .inr ⟨?_, fun hspent => ?_, ?_⟩
  · have hothers : v.countP (sends id) = 0 := by
      refine countP_sends_eq_zero fun e' he' => ?_
      obtain ⟨other, hevent, hother⟩ := houtside e' he'
      by_contra hsends'
      exact hother id (hevent.mem_of_sends (by simpa using hsends')) hid
    have hown : u.countP (sends id) ≤ u.countP isBroadcast :=
      List.countP_mono_left fun e' _ => isBroadcast_of_sends
    have hsome : 0 < u.countP (sends id) := List.countP_pos_iff.2 ⟨e, heu, hsends⟩
    have honce := hcourse.countP_isBroadcast_le
    rw [hinterleave.perm.countP_eq, List.countP_append, hothers]
    omega
  · obtain ⟨row, hrow, _, rfl, hstate⟩ := hstarted id hid
    exact hevolves.lawful.not_spent hrow (by rw [hstate]; rfl) (hevolves.spent hspent)
  · -- the sender's own rows do not notice what the other senders do
    have halone := passes_restrict hinterleave (fun e' he' => (hcourse.event e' he').names)
      (fun e' he' => by
        obtain ⟨other, hevent, hother⟩ := houtside e' he'
        exact hevent.names.imp hother) hpass
    have hspent := hcourse.spent (fun e' he' => hcalm e' (hinterleave.sublist_left.subset he'))
      hevolves.lawful.restrict (hmade.nodup_ids hbatch) (hstarted.restrict fun _ hmem => hmem) halone
      ⟨e, heu, isBroadcast_of_sends hsends⟩ id hid
    obtain ⟨row, hrow, hrowId, hstate⟩ := hspent
    exact ⟨row, (Store.mem_restrict.1 hrow).1, hrowId, hstate⟩

/-! ## Commands and sessions -/

/-- What the steps of a session keep of a message: it was never broadcast, or once and is spent. -/
def Once (id : MsgId) (es : List (Event interface)) (store : Store) : Prop :=
  es.countP (sends id) = 0 ∨ es.countP (sends id) = 1 ∧ store.Spent id

theorem BatchCourse.sent_once (h : BatchCourse settings es) (hs : s.Lawful)
    (hpass : Passes chainId s es s') (hcalm : ∀ e ∈ es, CalmEvent e) :
    es.countP (sends id) = 0 ∨ es.countP (sends id) = 1 ∧ ¬s.Spent id ∧ s'.Spent id := by
  cases h with
  | quiet quiet => exact .inl (countP_sends_of_none fun e he => (quiet e he).sent?_eq_none)
  | @opened m es fs opens course =>
    obtain ⟨s₁, hopens, hsends⟩ := passes_append.1 hpass
    have hopening : es.countP (sends id) = 0 :=
      countP_sends_of_none fun e he => (opens.quiet e he).sent?_eq_none
    have hmoves : (moves (starting m.batches) .started).countP (sends id) = 0 :=
      countP_sends_of_none (forall_mem_moves rfl)
    cases course with
    | stuck =>
      rw [List.countP_append, hopening]
      exact .inl rfl
    | unpriced =>
      rw [List.countP_append, List.countP_append, hopening, hmoves]
      exact .inl rfl
    | @sent toPrices gasPrice w us merged begun calm =>
      obtain ⟨s₂, hstarts, _, hprices, hpass⟩ := passes_append.1 hsends
      cases hprices
      have hcalmSends := (List.forall_mem_append.1 (List.forall_mem_append.1 hcalm).2).2
      have hcalmCourses := (List.forall_mem_cons.1 hcalmSends).2
      have honce := Dispatch.sent_once id (opens.madeUp hs hopens) hstarts hpass hcalmCourses merged
        (calm hcalmCourses)
      have hpricing : sends id (pricing toPrices) = false := rfl
      rw [List.countP_append, List.countP_append, hopening, hmoves, List.countP_cons, hpricing]
      simpa using honce

theorem Once.command {es fs : List (Event interface)} (h : Once id es s) (hs : s.Lawful)
    (hcourse : CommandCourse fs) (hpass : Passes chainId s fs s') (hcalm : ∀ e ∈ fs, CalmEvent e) :
    Once id (es ++ fs) s' := by
  have hevolves := evolves_of_passes hs hpass
  have hnew : fs.countP (sends id) = 0 ∨ fs.countP (sends id) = 1 ∧ ¬s.Spent id ∧ s'.Spent id := by
    cases hcourse with
    | quiet quiet => exact .inl (countP_sends_of_none fun e he => (quiet e he).sent?_eq_none)
    | cycle sweep batch =>
      obtain ⟨s₁, hsweep, hbatch⟩ := passes_append.1 hpass
      have hswept := evolves_of_passes hs hsweep
      rw [List.countP_append, countP_sends_of_none sweep.sent?_eq_none, Nat.zero_add]
      refine (batch.sent_once hswept.lawful hbatch (List.forall_mem_append.1 hcalm).2).imp_right ?_
      rintro ⟨hcount, hnot, hspent⟩
      exact ⟨hcount, fun hbefore => hnot (hswept.spent hbefore), hspent⟩
  unfold Once
  rw [List.countP_append]
  rcases h with hold | ⟨hold, hspent⟩
  · rw [hold, Nat.zero_add]
    exact hnew.imp_right fun ⟨hcount, _, hspent⟩ => ⟨hcount, hspent⟩
  · rcases hnew with hzero | ⟨_, hnot, _⟩
    · rw [hold, hzero]
      exact .inr ⟨rfl, hevolves.spent hspent⟩
    · exact absurd hspent hnot

theorem once_of_happens (id : MsgId) {start : Store} {ms : List Moment} (hstart : start.Lawful)
    (h : Happens chainId start ms s) (hcalm : ∀ moment ∈ ms, CalmEvent moment.event) :
    Once id (events ms) s := by
  induction h with
  | nothing => exact .inl rfl
  | @command ms ns s s' command r before takes recorded ih =>
    have hs := (evolves_of_passes hstart before.recorded.passes).lawful
    obtain ⟨hcalmBefore, hcalmNow⟩ := List.forall_mem_append.1 hcalm
    have hcalmDeeds : ∀ e ∈ deeds (events ns), CalmEvent e := by
      intro e he
      obtain ⟨moment, hmoment, rfl⟩ := List.mem_map.1 (List.mem_of_mem_filter he)
      exact hcalmNow moment hmoment
    have honce := (ih hcalmBefore).command hs (takes_command takes) (passes_deeds.2 recorded.passes) hcalmDeeds
    unfold Once at honce ⊢
    rwa [List.countP_append, countP_sends_deeds, ← List.countP_append, events, events, ← List.map_append]
      at honce

/-- Unless the client takes a dispatcher down, no message is among those of two broadcasts, whoever else is
asked, whatever they answer and however often a dispatcher begins anew on the same store. -/
theorem broadcast_at_most_once {E : Type} (others : Collaborators E) (calm : others.Calm)
    (chainId : String) (env : E) (commands : List Command) (id : MsgId) :
    (World.session chainId others env emptyStore commands).history.countP
      (fun moment => sends id moment.event) ≤ 1 := by
  obtain ⟨hhappens, hcalm⟩ := happens_session chainId others env emptyStore commands
  have honce := once_of_happens id lawful_emptyStore hhappens (hcalm calm)
  have hcount : (events (World.session chainId others env emptyStore commands).history).countP (sends id) =
      (World.session chainId others env emptyStore commands).history.countP
        (fun moment => sends id moment.event) :=
    List.countP_map
  rw [← hcount]
  rcases honce with hzero | ⟨hone, _⟩
  · omega
  · omega

/-- A message that is left started by a failing batch is broadcast by the next one, and by no other. -/
theorem countP_sends_of_retried : (World.session "chain" obliging 1 emptyStore
    [.enqueue "contract" payment, .pollCycle (limitedSettings 1), .pollCycle (limitedSettings 1),
      .pollCycle (limitedSettings 1)]).history.countP (fun moment => sends 1 moment.event) = 1 := by
  refine Nat.le_antisymm (broadcast_at_most_once obliging calm_obliging "chain" 1 _ 1) ?_
  decide +kernel

end ReportRelay.Dispatch
