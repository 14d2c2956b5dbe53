import ReportRelay.Proofs.Dispatch.CommandCourse
import ReportRelay.Proofs.Dispatch.CommonFate
import ReportRelay.Proofs.Dispatch.Parts
import ReportRelay.Proofs.Dispatch.Readiness

/-!
# What a batch comes to

A sender with a key sends what it has started and the oldest new message, and no more. When a price is found and the
client stays calm, all of these are in one state at the end, whatever the other senders do meanwhile. Which state that
is can be read off the calls that were made for the sender.
-/

namespace ReportRelay.Dispatch

variable {chainId : String} {s s' : Store} {settings : Settings} {i : Intake} {m : Makeup} {batch : SenderBatch}
  {sender : String} {t u v w es : List (Event interface)} {ids : List MsgId} {behalf : Behalf}

/-! ## What a sender sends -/

/-- The messages that a sender sends together: those that it has started and, of the new ones, the oldest. -/
def batchIds (chainId : String) (settings : Settings) (now : Int) (sender : String) (store : Store) : List MsgId :=
  (((store.oldest chainId .started settings.maxMsgsPerBatch).filter (isDue settings now sender)) ++
    ((store.oldest chainId .unstarted settings.maxMsgsPerBatch).find? (isDue settings now sender)).toList).map Row.id

/-- The rows of these messages. -/
def sentRows (chainId : String) (settings : Settings) (now : Int) (sender : String) (store : Store) : List Row :=
  (store.oldest chainId .started settings.maxMsgsPerBatch).filter (isDue settings now sender) ++
    ((store.oldest chainId .unstarted settings.maxMsgsPerBatch).find? (isDue settings now sender)).toList

theorem batchIds_eq_map_sentRows (now : Int) :
    batchIds chainId settings now sender s = (sentRows chainId settings now sender s).map Row.id := rfl

/-- Those of the rows that one sender can send, as they are pending. -/
def duePending (settings : Settings) (now : Int) (sender : String) (rows : List Row) : List Pending :=
  (rows.filterMap fun row => (find settings now row).pending?).filter fun p => p.sender = sender

theorem mem_duePending {now : Int} {rows : List Row} {p : Pending} (h : p ∈ duePending settings now sender rows) :
    p.row ∈ rows := by
  obtain ⟨hmem, _⟩ := List.mem_filter.1 h
  obtain ⟨row, hrow, hfind⟩ := List.mem_filterMap.1 hmem
  cases hfound : find settings now row with
  | pending q =>
    rw [hfound] at hfind
    cases hfind
    rwa [(find_of_pending hfound).1]
  | expired | undecodable =>
    rw [hfound] at hfind
    cases hfind

theorem map_row_duePending (now : Int) (rows : List Row) :
    (duePending settings now sender rows).map Pending.row = rows.filter (isDue settings now sender) := by
  unfold duePending
  rw [List.filter_filterMap, List.map_filterMap, ← List.filterMap_eq_filter]
  refine List.filterMap_congr fun row _ => ?_
  by_cases hdue : isDue settings now sender row = true
  · obtain ⟨p, hfind, rfl, hsender⟩ := isDue_iff.1 hdue
    simp [hfind, Finding.pending?, hdue, hsender]
  · rw [Option.guard, if_neg hdue]
    cases hfind : find settings now row with
    | pending p =>
      have hsender : p.sender ≠ sender := fun heq => hdue (isDue_iff.2 ⟨p, hfind, (find_of_pending hfind).1, heq⟩)
      simp [Finding.pending?, Option.filter, hsender]
    | expired | undecodable => rfl

theorem filter_pending (sender : String) : (i.pending settings).filter (fun p => p.sender = sender) =
    duePending settings i.now sender i.leftover ++ duePending settings i.now sender i.unstarted := by
  unfold Intake.pending Intake.findings Intake.loaded duePending
  rw [List.filterMap_map, List.filterMap_append, List.filter_append]
  rfl

namespace Drawn

variable {g : SenderMsgs}

theorem isStarted_of_leftover (h : Drawn chainId settings i s) :
    ∀ p ∈ duePending settings i.now sender i.leftover, p.isStarted = true :=
  fun _ hp => isStarted_iff.2 (Store.mem_of_load h.leftover (mem_duePending hp)).2.2

theorem isStarted_of_unstarted (h : Drawn chainId settings i s) :
    ∀ p ∈ duePending settings i.now sender i.unstarted, p.isStarted = false := by
  intro p hp
  rw [Pending.isStarted, (Store.mem_of_load h.unstarted (mem_duePending hp)).2.2]
  rfl

theorem started_eq (h : Drawn chainId settings i s) (hg : g ∈ bySender (i.pending settings)) :
    g.started = duePending settings i.now g.sender i.leftover := by
  rw [(mem_bySender hg).1, filter_pending, List.filter_append, List.filter_eq_self.2 h.isStarted_of_leftover,
    List.filter_eq_nil_iff.2 fun p hp => by simp [h.isStarted_of_unstarted p hp], List.append_nil]

theorem next_eq (h : Drawn chainId settings i s) (hg : g ∈ bySender (i.pending settings)) :
    g.next = (duePending settings i.now g.sender i.unstarted).head? := by
  have hnone : (duePending settings i.now g.sender i.leftover).find? (fun p => !p.isStarted) = none :=
    List.find?_eq_none.2 fun p hp => by simp [h.isStarted_of_leftover p hp]
  have hall : (duePending settings i.now g.sender i.unstarted).filter (fun p => !p.isStarted) =
      duePending settings i.now g.sender i.unstarted :=
    List.filter_eq_self.2 fun p hp => by simp [h.isStarted_of_unstarted p hp]
  rw [(mem_bySender hg).2, filter_pending, List.find?_append, hnone, Option.none_or, ← List.head?_filter, hall]

/-- A sender's messages are the rows that the store has for it. -/
theorem rows_eq (h : Drawn chainId settings i s) (hg : g ∈ bySender (i.pending settings)) :
    g.msgs.map Pending.row = sentRows chainId settings i.now g.sender s := by
  obtain ⟨_, hleftover⟩ := Store.load_ok h.leftover
  obtain ⟨_, hunstarted⟩ := Store.load_ok h.unstarted
  rw [sentRows, ← hleftover, ← hunstarted, SenderMsgs.msgs, List.map_append, h.started_eq hg, h.next_eq hg,
    map_row_duePending, ← Option.toList_map, ← List.head?_map, map_row_duePending, List.head?_filter]

theorem ids_eq (h : Drawn chainId settings i s) (hg : g ∈ bySender (i.pending settings)) :
    g.ids = batchIds chainId settings i.now g.sender s := by
  rw [batchIds_eq_map_sentRows, ← h.rows_eq hg, List.map_map]
  rfl

end Drawn

/-! ## What the calls for a sender tell -/

theorem any_filter_of_imp {α : Type} {keep p : α → Bool} {l : List α}
    (h : ∀ a ∈ l, keep a = false → p a = false) : (l.filter keep).any p = l.any p := by
  rw [Bool.eq_iff_iff, List.any_eq_true, List.any_eq_true]
  constructor
  · rintro ⟨a, ha, hp⟩
    exact ⟨a, List.mem_of_mem_filter ha, hp⟩
  · rintro ⟨a, ha, hp⟩
    refine ⟨a, List.mem_filter.2 ⟨ha, ?_⟩, hp⟩
    by_contra hkeep
    rw [h a ha (by simpa using hkeep)] at hp
    cases hp

theorem findSome?_filter_of_imp {α β : Type} {keep : α → Bool} {f : α → Option β} {l : List α}
    (h : ∀ a ∈ l, keep a = false → f a = none) : (l.filter keep).findSome? f = l.findSome? f := by
  rw [← List.head?_filterMap, ← List.head?_filterMap, List.filterMap_filter]
  congr 1
  refine List.filterMap_congr fun a ha => ?_
  split
  · rfl
  · next hkeep => exact (h a ha (by simpa using hkeep)).symm

theorem Settled.of_filter {keep : Event interface → Bool} (h : Settled chainId ids es s)
    (hkeep : ∀ e ∈ es, keep e = false → Harmless ids e) : Settled chainId ids (es.filter keep) s := by
  have hdefers : (es.filter keep).any defers = es.any defers :=
    any_filter_of_imp fun e he hnot => (hkeep e he hnot).defers
  have hcondemns : (es.filter keep).any (condemns ids) = es.any (condemns ids) :=
    any_filter_of_imp fun e he hnot => (hkeep e he hnot).condemns
  have hconfirms : (es.filter keep).any confirms = es.any confirms :=
    any_filter_of_imp fun e he hnot => (hkeep e he hnot).confirms
  have hsaves : (es.filter keep).any saves = es.any saves :=
    any_filter_of_imp fun e he hnot => (hkeep e he hnot).saves_eq_false
  have hannounced : (es.filter keep).findSome? announced? = es.findSome? announced? :=
    findSome?_filter_of_imp fun e he hnot => (hkeep e he hnot).announced?
  refine ⟨?_, ?_, ?_, ?_⟩
  · rw [hdefers]
    exact h.deferred
  · rw [hcondemns]
    exact h.condemned
  · rw [hsaves]
    exact h.unsaved
  · rw [hdefers, hcondemns, hconfirms, hannounced]
    exact h.confirmed

theorem SenderEvent.harmless {e : Event interface} (h : SenderEvent behalf e)
    (hnot : isCallFor behalf.sender e = false) : Harmless ids e := by
  cases h with
  | plain plain =>
    cases plain with
    | call => simp [isCallFor, called] at hnot
    | errored => exact ⟨rfl, rfl, rfl, rfl⟩
  | broadcast => simp [isCallFor, called] at hnot
  | broadcasted | confirmed => exact ⟨rfl, rfl, rfl, rfl⟩

/-- The calls alone tell what becomes of the messages. -/
theorem Settled.of_calls (h : Settled chainId ids es s) (hevents : ∀ e ∈ es, SenderEvent behalf e) :
    Settled chainId ids (callsFor behalf.sender es) s :=
  h.of_filter fun e he => (hevents e he).harmless

/-- When a sender's dialogue has come to its end among those of others, the calls made for it tell what has become
of its messages. -/
theorem settled_of_takes {gasPrice : DecCoin} (hmade : MadeUp chainId settings m s s')
    (hbatch : batch ∈ m.batches) (htakes : (sendLogged settings gasPrice batch).Takes u (.ok ()))
    (hinterleave : Interleave u v w) (hothers : OfOthers m.batches batch.msgs.sender v)
    (hcalm : ∀ e ∈ w, CalmEvent e) {s'' later : Store} (hs : s''.Lawful)
    (hstarted : s''.AllIn chainId batch.msgs.ids .started) (hpass : Passes chainId s'' w later) :
    Settled chainId batch.msgs.ids (callsFor batch.msgs.sender w) later := by
  obtain ⟨o, hcourse, _⟩ := takes_sendLogged htakes
  have halone : Passes chainId (s''.restrict batch.msgs.ids) (deeds u) (later.restrict batch.msgs.ids) := by
    refine passes_restrict (hinterleave.filter isDeed) (fun e he => (hcourse.event e he).names) (fun e he => ?_)
      (passes_deeds.2 hpass)
    obtain ⟨other, hother, hne, hevent⟩ := hothers e he
    refine hevent.names.imp fun id hid => ?_
    exact hmade.distinct.not_mem_ids (hmade.parted.mem_batches hother) (hmade.parted.mem_batches hbatch) hne hid
  have hcalmOwn : ∀ e ∈ deeds u, CalmEvent e :=
    fun e he => hcalm e (hinterleave.sublist_left.subset (List.mem_of_mem_filter he))
  have hsettled := hcourse.settled hcalmOwn hs.restrict (hmade.nodup_ids hbatch)
    (hstarted.restrict fun _ hid => hid) halone
  rw [callsFor_of_interleave hinterleave hothers, ← callsFor_deeds]
  exact hsettled.of_restrict.of_calls hcourse.event

/-! ## Keys and prices -/

/-- The sender's key is found. -/
def grantsKey (sender : String) : Event interface → Bool
  | ⟨.signer asked, reply⟩ => asked = sender ∧ (Reply.answer? (α := Signer) reply).isSome
  | _ => false

/-- A price in the token is found. -/
def quotes (token : String) : Event interface → Bool
  | ⟨.prices, reply⟩ => (Reply.answer? (α := Prices) reply).any fun prices => (prices.find? token).isSome
  | _ => false

theorem Groundwork.quotes_eq_false {token : String} {e : Event interface} (h : Groundwork e) :
    quotes token e = false := by
  cases h <;> rfl

theorem SenderEvent.grantsKey_eq_false {e : Event interface} (h : SenderEvent behalf e) :
    grantsKey sender e = false := by
  cases h with
  | plain plain => cases plain <;> rfl
  | broadcast | broadcasted | confirmed => rfl

/-- A preparation that finds a price ends with a plan. -/
theorem Prepares.exists_plan {r : Except Crash (Except Error (Option Plan))} (h : Prepares settings es r)
    (hquote : ∃ e ∈ es, quotes settings.gasToken e = true) : ∃ plan, r = .ok (.ok (some plan)) := by
  obtain ⟨e, he, hquote⟩ := hquote
  rcases h.groundwork with hgroundwork | ⟨fs, toPrices, rfl, hgroundwork, hplan | hmissing⟩
  · rw [(hgroundwork e he).quotes_eq_false] at hquote
    cases hquote
  · exact hplan
  · exfalso
    rcases List.mem_append.1 he with he | he
    · rw [(hgroundwork e he).quotes_eq_false] at hquote
      cases hquote
    · obtain rfl := List.mem_singleton.1 he
      obtain ⟨prices, hprices, hfound⟩ := (Option.any_eq_true ..).1 hquote
      rw [hmissing prices (Reply.outcome_of_answer? hprices)] at hfound
      cases hfound

theorem Asks.exists_batch {gs unsignable : List SenderMsgs} {batches : List SenderBatch}
    (h : Asks gs es batches unsignable) (hgrant : ∃ e ∈ es, grantsKey sender e = true) :
    ∃ batch ∈ batches, batch.msgs.sender = sender := by
  obtain ⟨e, he, hgrant⟩ := hgrant
  induction h with
  | done => cases he
  | given _ _ ih =>
    rcases List.mem_cons.1 he with rfl | he
    · exact ⟨_, List.mem_cons_self, (of_decide_eq_true hgrant).1⟩
    · obtain ⟨batch, hbatch, hsender⟩ := ih he
      exact ⟨batch, List.mem_cons_of_mem _ hbatch, hsender⟩
  | refused error_eq _ ih =>
    rcases List.mem_cons.1 he with rfl | he
    · obtain ⟨signer, hsigner⟩ := Option.isSome_iff_exists.1 (of_decide_eq_true hgrant).2
      cases error_eq.symm.trans (Reply.outcome_of_answer? hsigner)
    · exact ih he

theorem grantsKey_of_mem_moves {state : MsgState} : ∀ e ∈ moves ids state, grantsKey sender e = false :=
  forall_mem_moves rfl

/-- A sender whose key is found has a batch. -/
theorem Opens.exists_batch (h : Opens settings m es) {state : MsgState} {toPrices : Reply Prices}
    (hgrant : ∃ e ∈ es ++ (moves ids state ++ [pricing toPrices]), grantsKey sender e = true) :
    ∃ batch ∈ m.batches, batch.msgs.sender = sender := by
  obtain ⟨e, he, hgrant⟩ := hgrant
  have hmoves {ids : List MsgId} {state : MsgState} : e ∉ moves ids state := by
    intro hmem
    rw [grantsKey_of_mem_moves e hmem] at hgrant
    cases hgrant
  obtain ⟨asks⟩ := h
  refine asks.exists_batch ⟨e, ?_, hgrant⟩
  simp only [List.mem_cons, List.mem_append, hmoves, List.not_mem_nil, or_false, false_or] at he
  rcases he with (rfl | rfl | rfl | he) | rfl
  · cases hgrant
  · cases hgrant
  · cases hgrant
  · exact he
  · cases hgrant

theorem Opens.mem_clockRead (h : Opens settings m es) : clockRead m.now ∈ es := by
  cases h
  exact .tail _ (.tail _ (.head _))

/-! ## The batch -/

theorem exists_settled {r : Except Crash (Except Error Unit)} (h : (sendMsgBatch settings).Takes t r)
    (hcalm : ∀ e ∈ t, CalmEvent e) (hs : s.Lawful) (hpass : Passes chainId s t s')
    (hgrant : ∃ e ∈ deeds t, grantsKey sender e = true)
    (hquote : ∃ e ∈ deeds t, quotes settings.gasToken e = true) :
    ∃ now, clockRead now ∈ t ∧
      Settled chainId (batchIds chainId settings now sender s) (callsFor sender t) s' := by
  rcases takes_sendMsgBatch_calm h hcalm with
    ⟨o, hprepare, hnone⟩ | ⟨plan, u, w, us, rfl, hprepare, hmerge, hends⟩
  · obtain ⟨plan, rfl⟩ := (takes_prepare hprepare).exists_plan hquote
    exact absurd rfl (hnone plan)
  obtain ⟨n, hprepared, hsent⟩ := passes_append.1 hpass
  have hlawful := (evolves_of_passes hs hprepared).lawful
  obtain ⟨m, opening, toPrices, gasPrice, made, rfl, hopens, hdeeds, hmade, hstarts⟩ :=
    exists_madeUp hprepare hs hprepared
  obtain ⟨u', v, hinterleave, hothers, ⟨batch, hbatch, rfl, htakes⟩ | ⟨_, hnobody⟩⟩ :=
    exists_part (List.nodup_append.1 hmade.parted.nodup_senders).1 hmerge hends sender
  · have hsettled := settled_of_takes hmade hbatch htakes hinterleave hothers
      (fun e he => hcalm e (List.mem_append_right _ he)) hlawful (hmade.allIn_started hstarts hbatch) hsent
    refine ⟨m.now, ?_, ?_⟩
    · have hclock : clockRead m.now ∈ deeds u := by
        rw [hdeeds]
        exact List.mem_append_left _ hopens.mem_clockRead
      exact List.mem_append_left _ (List.mem_of_mem_filter hclock)
    · rw [← hmade.ids_eq (hmade.parted.mem_batches hbatch), callsFor_append, ← callsFor_deeds,
        (takes_prepare hprepare).callsFor_eq_nil, List.nil_append]
      exact hsettled
  · exfalso
    obtain ⟨e, he, hgrant⟩ := hgrant
    rw [deeds_append, hdeeds] at he
    rcases List.mem_append.1 he with he | he
    · obtain ⟨batch, hbatch, hsender⟩ := hopens.exists_batch ⟨e, he, hgrant⟩
      exact hnobody batch hbatch hsender
    · obtain ⟨other, _, hevent⟩ := exists_sender_of_ends hmerge hends e he
      rw [hevent.grantsKey_eq_false] at hgrant
      cases hgrant

/-- When a price is found and the client stays calm, the messages that a sender with a key sends are all in one state
at the end of the batch: still started, errored without a hash, or confirmed in the same transaction. The answers that
the client gave for this sender tell which. -/
theorem settled_of_batch {E : Type} (others : Collaborators E) (calm : others.Calm) (chainId : String) (env : E)
    (store : Store) (hs : store.Lawful) (settings : Settings) (sender : String) (now : Int)
    (hclock : ∀ time ∈ clockReadings
      (events (World.session chainId others env store [.sendMsgBatch settings]).history), time = now)
    (hgrant : ∃ e ∈ events (World.session chainId others env store [.sendMsgBatch settings]).history,
      grantsKey sender e = true)
    (hquote : ∃ e ∈ events (World.session chainId others env store [.sendMsgBatch settings]).history,
      quotes settings.gasToken e = true) :
    Settled chainId (batchIds chainId settings now sender store)
      (callsFor sender (events (World.session chainId others env store [.sendMsgBatch settings]).history))
      (World.session chainId others env store [.sendMsgBatch settings]).store := by
  obtain ⟨⟨r, htakes⟩, hrecorded, _⟩ := course_of_command chainId others env store (.sendMsgBatch settings)
  obtain ⟨o, ho⟩ := takes_outcome htakes
  have hcalmEvents := calmEvents_of_command chainId calm env store (.sendMsgBatch settings)
  obtain ⟨time, htime, hsettled⟩ := exists_settled ho hcalmEvents hs hrecorded.passes
    (exists_of_deeds (fun _ _ => rfl) (fun _ => rfl) hgrant) (exists_of_deeds (fun _ _ => rfl) (fun _ => rfl) hquote)
  obtain rfl := hclock time (mem_clockReadings htime)
  exact hsettled

/-- Two payments, of which a batch that failed has left the first one started. -/
def halfStarted : Store :=
  (World.session "chain" obliging 1 (payments 2) [.sendMsgBatch (limitedSettings 2)]).store

/-- The next batch confirms both in one transaction. -/
theorem settled_of_halfStarted :
    halfStarted.rows.map Row.state = [.started, .unstarted] ∧
      batchIds "chain" (limitedSettings 2) 0 "a12uel5l" halfStarted = [1, 2] ∧
      (World.session "chain" obliging 0 halfStarted [.sendMsgBatch (limitedSettings 2)]).store.rows.map
        (fun row => (row.state, row.txHash)) = [(.confirmed, some "hash"), (.confirmed, some "hash")] ∧
      Settled "chain" (batchIds "chain" (limitedSettings 2) 0 "a12uel5l" halfStarted)
        (callsFor "a12uel5l" (events
          (World.session "chain" obliging 0 halfStarted [.sendMsgBatch (limitedSettings 2)]).history))
        (World.session "chain" obliging 0 halfStarted [.sendMsgBatch (limitedSettings 2)]).store :=
  ⟨by decide +kernel, by decide +kernel, by decide +kernel,
    settled_of_batch obliging calm_obliging "chain" 0 halfStarted
      (lawful_session "chain" obliging 1 (lawful_payments 2) _) (limitedSettings 2) "a12uel5l" 0
      (by decide +kernel) (by decide +kernel) (by decide +kernel)⟩

end ReportRelay.Dispatch
