import ReportRelay.Proofs.Dialogue.Interleaving
import ReportRelay.Proofs.Dispatch.Preparation
import ReportRelay.Proofs.Dispatch.SenderFate

/-!
# Courses of a batch

A batch is prepared, and then the courses of its senders run side by side. A batch that is given up before that has
only errored messages or started them.
-/

namespace ReportRelay.Dispatch

variable {t : List (Event interface)} {settings : Settings} {gasPrice : DecCoin}
  {batches : List SenderBatch}

/-- The event broadcasts nothing, and if it moves messages, it errors them. -/
def Quiet : Event interface → Prop
  | ⟨.client _ (.broadcast _), _⟩ | ⟨.storeAll .., _⟩ => False
  | ⟨.store (.update _ state _), _⟩ => state = .errored
  | _ => True

theorem Quiet.sent?_eq_none {e : Event interface} (h : Quiet e) : sent? e = none := by
  obtain ⟨question, a⟩ := e
  cases question with
  | client behalf call =>
    cases call with
    | broadcast => exact h.elim
    | account | simulateEach | simulate | latestBlock | createAndSign | lookUp => rfl
  | signer | prices | now | turn | store | storeAll | log => rfl

/-- The course of a batch that can be sent: new messages are started, a price is found, and the senders' courses run
side by side. They come to their ends unless the client takes the dispatcher down. -/
inductive Sends (settings : Settings) (batches : List SenderBatch) : List (Event interface) → Prop
  | stuck {e : Error} : Sends settings batches [moving (starting batches) .started (.error e)]
  | unpriced {toPrices : Reply Prices} :
    Sends settings batches (moves (starting batches) .started ++ [pricing toPrices])
  | sent {toPrices : Reply Prices} {gasPrice : DecCoin} {w : List (Event interface)}
    {us : List (List (Event interface))} (merged : Merge us w)
    (begun : List.Forall₂ (fun batch u => ∃ v r, SenderCourse settings gasPrice batch (u ++ v) r)
      batches us)
    (calm : (∀ e ∈ w, CalmEvent e) →
      List.Forall₂ (fun batch u => ∃ r, SenderCourse settings gasPrice batch u r) batches us) :
    Sends settings batches (moves (starting batches) .started ++ pricing toPrices :: w)

/-- All that a batch asks for, up to its end or a crash. -/
inductive BatchCourse (settings : Settings) : List (Event interface) → Prop
  | quiet {es : List (Event interface)} (quiet : ∀ e ∈ es, Quiet e) : BatchCourse settings es
  | opened {m : Makeup} {es fs : List (Event interface)} (opens : Opens settings m es)
    (sends : Sends settings m.batches fs) : BatchCourse settings (es ++ fs)

theorem exists_sender {w : List (Event interface)} {us : List (List (Event interface))} (hmerge : Merge us w)
    (hbegun : List.Forall₂ (fun batch u => ∃ v r, SenderCourse settings gasPrice batch (u ++ v) r)
      batches us) : ∀ e ∈ w, ∃ batch ∈ batches, SenderEvent batch.behalf e := by
  intro e he
  obtain ⟨u, hu, heu⟩ := hmerge.mem_iff.1 he
  obtain ⟨batch, _, _, _, _, rfl, _, ⟨v, r, hcourse⟩, _⟩ := exists_split_of_mem hbegun hu
  exact ⟨batch, List.mem_append_right _ List.mem_cons_self,
    hcourse.event e (List.mem_append_left v heu)⟩

/-! ## Side by side -/

theorem calm_of_deeds (h : ∀ e ∈ deeds t, CalmEvent e) : ∀ e ∈ t, CalmEvent e :=
  forall_of_deeds (fun _ _ => trivial) (fun _ => trivial) h

/-- The senders' dialogues side by side: each has begun, and when the client stays calm, each comes to its end. -/
theorem exists_merge_of_sends {r : Except Crash Unit}
    (h : (Dialogue.all (batches.map (sendLogged settings gasPrice))).Takes t r) : ∃ us, Merge us t ∧
      List.Forall₂ (fun batch u => (sendLogged settings gasPrice batch).Begins u) batches us ∧
      ((∀ e ∈ t, CalmEvent e) →
        List.Forall₂ (fun batch u => (sendLogged settings gasPrice batch).Takes u (.ok ())) batches us) := by
  obtain ⟨us, hmerge, heach, hcrash⟩ := Dialogue.exists_merge_of_takes_all nonempty_answer h
  rw [List.forall₂_map_left_iff] at heach
  refine ⟨us, hmerge, heach.imp fun _ _ hboth => hboth.1, fun hcalm => ?_⟩
  cases r with
  | ok => exact heach.imp fun _ _ hboth => hboth.2 rfl
  | error c =>
    exfalso
    obtain ⟨p, hp, u, hu, htakes⟩ := hcrash c rfl
    obtain ⟨batch, _, rfl⟩ := List.mem_map.1 hp
    obtain ⟨o | o, hcourse, ho⟩ := takes_sendLogged htakes
    · obtain ⟨e, he, hnot⟩ := hcourse.exists_crash
      exact hnot (hcalm e ((hmerge.sublist hu).subset (List.mem_of_mem_filter he)))
    · cases ho

theorem exists_courses_of_sends {r : Except Crash Unit}
    (h : (Dialogue.all (batches.map (sendLogged settings gasPrice))).Takes t r) : ∃ us, Merge us (deeds t) ∧
      List.Forall₂ (fun batch u => ∃ v r, SenderCourse settings gasPrice batch (u ++ v) r) batches us ∧
      ((∀ e ∈ deeds t, CalmEvent e) →
        List.Forall₂ (fun batch u => ∃ r, SenderCourse settings gasPrice batch u r) batches us) := by
  obtain ⟨us, hmerge, hbegun, hends⟩ := exists_merge_of_sends h
  refine ⟨us.map (List.filter isDeed), hmerge.filter isDeed, ?_, fun hcalm => ?_⟩
  · refine List.forall₂_map_right_iff.2 (hbegun.imp fun batch u ⟨v, o, htakes⟩ => ?_)
    obtain ⟨o', hcourse, _⟩ := takes_sendLogged htakes
    exact ⟨deeds v, o', by rwa [deeds_append] at hcourse⟩
  · refine List.forall₂_map_right_iff.2 ((hends (calm_of_deeds hcalm)).imp fun batch u htakes => ?_)
    obtain ⟨o, hcourse, _⟩ := takes_sendLogged htakes
    exact ⟨o, hcourse⟩

/-! ## The batch -/

theorem quiet_moves {ids : List MsgId} : ∀ e ∈ moves ids .errored, Quiet e :=
  forall_mem_moves rfl

theorem quiet_asked {asked : List (Event interface)}
    (h : ∀ e ∈ asked, ∃ sender reply, e = asking sender reply) : ∀ e ∈ asked, Quiet e := by
  intro e he
  obtain ⟨_, _, rfl⟩ := h e he
  trivial

theorem quiet_takenIn {i : Intake} : ∀ e ∈ takenIn settings i, Quiet e := by
  simp only [takenIn, List.forall_mem_cons]
  exact ⟨trivial, trivial, trivial, List.forall_mem_nil _⟩

theorem Opens.quiet {m : Makeup} {es : List (Event interface)} (h : Opens settings m es) : ∀ e ∈ es, Quiet e := by
  obtain ⟨asks⟩ := h
  simp only [List.forall_mem_cons, List.forall_mem_append]
  exact ⟨trivial, trivial, trivial, quiet_moves, quiet_moves, quiet_asked asks.eq_asking, quiet_moves⟩

/-- A preparation without a plan is all that happens. -/
theorem Prepares.batchCourse {es : List (Event interface)} {r : Except Crash (Except Error (Option Plan))}
    (h : Prepares settings es r) (hnone : ∀ plan, r ≠ .ok (.ok (some plan))) : BatchCourse settings es := by
  cases h with
  | unloaded => exact .quiet (List.forall_mem_singleton.2 trivial)
  | halfLoaded | idle => exact .quiet (List.forall_mem_cons.2 ⟨trivial, List.forall_mem_singleton.2 trivial⟩)
  | untimely => exact .quiet quiet_takenIn
  | notExpired => exact .quiet (List.forall_mem_append.2 ⟨quiet_takenIn, List.forall_mem_singleton.2 rfl⟩)
  | notDropped =>
    refine .quiet ?_
    simp only [List.forall_mem_append]
    exact ⟨quiet_takenIn, quiet_moves, List.forall_mem_singleton.2 rfl⟩
  | notAsked asked_eq =>
    refine .quiet ?_
    simp only [List.forall_mem_append]
    exact ⟨quiet_takenIn, quiet_moves, quiet_moves, quiet_asked asked_eq⟩
  | notMarked asks =>
    refine .quiet ?_
    simp only [List.forall_mem_append]
    exact ⟨quiet_takenIn, quiet_moves, quiet_moves, quiet_asked asks.eq_asking, List.forall_mem_singleton.2 rfl⟩
  | noBatches opens => exact .quiet opens.quiet
  | notStarted opens => exact .opened opens .stuck
  | unpriced opens => exact .opened opens .unpriced
  | planned => exact absurd rfl (hnone _)

theorem takes_sendMsgBatch {r : Except Crash (Except Error Unit)}
    (h : (sendMsgBatch settings).Takes t r) : BatchCourse settings (deeds t) := by
  rcases cases_of_sendMsgBatch h with ⟨o, hprepare, hnone⟩ | ⟨plan, u, v, o, rfl, hu, hall⟩
  · exact (takes_prepare hprepare).batchCourse hnone
  · obtain ⟨m, opening, toPrices, prices, estimated, hopens, _, _, hdeeds, rfl⟩ :=
      (takes_prepare hu).exists_makeup
    obtain ⟨us, hmerge, hbegun, hcalm⟩ := exists_courses_of_sends hall
    have hsends : Sends settings m.batches (moves (starting m.batches) .started ++ pricing toPrices :: deeds v) :=
      .sent hmerge hbegun hcalm
    rw [deeds_append, hdeeds]
    simpa only [List.append_assoc, List.singleton_append] using BatchCourse.opened hopens hsends

end ReportRelay.Dispatch
