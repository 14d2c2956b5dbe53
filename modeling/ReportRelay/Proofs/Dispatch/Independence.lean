import ReportRelay.Proofs.Dispatch.CommandCourse
import ReportRelay.Proofs.Dispatch.Leftovers
import ReportRelay.Proofs.Dispatch.Timing

/-!
# Senders do not depend on each other

Two runs of a batch on the same store are told the same time, keys and prices, and the client answers the calls for one
sender alike. Whatever it answers to the others, and however their courses and the sender's own are interleaved, the
same calls are made for this sender and its rows end up the same.
-/

namespace ReportRelay.Dispatch

variable {chainId : String} {s s' n m : Store} {settings : Settings} {sender : String}
  {t t' u v w x : List (Event interface)} {e f : Event interface}

/-! ## What is the same in two runs -/

theorem meets_instant : Meets chainId (e.map Question.instant) s s' ↔ Meets chainId e s s' := by
  obtain ⟨question, a⟩ := e
  cases question <;> exact Iff.rfl

theorem passes_gist : Passes chainId s (gist t) s' ↔ Passes chainId s t s' := by
  induction t generalizing s with
  | nil => rfl
  | cons e t ih => exact exists_congr fun _ => and_congr meets_instant ih

/-- Something is said or done, and nobody is asked but the store. -/
def Inward : Event interface → Prop
  | ⟨.client .., _⟩ | ⟨.signer _, _⟩ | ⟨.prices, _⟩ | ⟨.now, _⟩ => False
  | _ => True

/-- What the store answers is determined by the store. -/
theorem Inward.instant_eq (h : Inward e) (hask : e.question = f.question) {s₁ s₂ : Store}
    (he : Meets chainId e s s₁) (hf : Meets chainId f s s₂) :
    e.map Question.instant = f.map Question.instant := by
  obtain ⟨question, a⟩ := e
  obtain ⟨question', b⟩ := f
  cases hask
  cases question with
  | store statement =>
    have hanswer : a = b := congrArg Prod.fst (Eq.trans (Eq.symm he) hf)
    rw [hanswer]
  | storeAll ids state txHash =>
    have hanswer : a = b := congrArg Prod.fst (Eq.trans (Eq.symm he) hf)
    rw [hanswer]
  | log | turn => rfl
  | client | signer | prices | now => exact h.elim

/-- Whether an event is meant depends on nothing but the question. -/
def ByQuestion (watched : Event interface → Bool) : Prop :=
  ∀ e f : Event interface, e.question = f.question → watched e = watched f

theorem byQuestion_of_answers {watched : Event interface → Bool}
    (h : ∀ question a b, watched ⟨question, a⟩ = watched ⟨question, b⟩) : ByQuestion watched := by
  rintro ⟨question, a⟩ ⟨_, b⟩ rfl
  exact h question a b

theorem ByQuestion.filter_gist {watched : Event interface → Bool} (h : ByQuestion watched) :
    (gist t).filter watched = gist (t.filter watched) := by
  unfold gist
  rw [List.filter_map]
  congr 2
  exact funext fun e => h _ _ rfl

/-- Of two courses on the same store, all is answered alike when those who are watched answer alike and the others are
the store. -/
theorem answeredAlike_of_passes {watched : Event interface → Bool} (hwatched : ByQuestion watched)
    (hinward : ∀ e ∈ t, watched e = false → Inward e) (hpass : Passes chainId s t n)
    (hpass' : Passes chainId s t' m)
    (halike : AnsweredAlike ((gist t).filter watched) ((gist t').filter watched)) :
    AnsweredAlike (gist t) (gist t') := by
  induction t generalizing t' s with
  | nil => trivial
  | cons e t ih =>
    cases t' with
    | nil => trivial
    | cons f t' =>
      intro hask
      obtain ⟨k, he, hpass⟩ := hpass
      obtain ⟨k', hf, hpass'⟩ := hpass'
      have hcons : AnsweredAlike ((e.map Question.instant :: gist t).filter watched)
        ((f.map Question.instant :: gist t').filter watched) := halike
      have hboth : e.map Question.instant = f.map Question.instant ∧
          AnsweredAlike ((gist t).filter watched) ((gist t').filter watched) := by
        cases hsees : watched (e.map Question.instant) with
        | true =>
          rw [List.filter_cons_of_pos hsees, List.filter_cons_of_pos ((hwatched _ _ hask).symm.trans hsees)] at hcons
          exact hcons hask
        | false =>
          have hsees' : watched (f.map Question.instant) = false := (hwatched _ _ hask).symm.trans hsees
          rw [List.filter_cons_of_neg (by simp [hsees]), List.filter_cons_of_neg (by simp [hsees'])] at hcons
          have hnot : watched e = false := (hwatched e (e.map Question.instant) rfl).trans hsees
          exact ⟨(hinward e List.mem_cons_self hnot).instant_eq hask he hf, hcons⟩
      obtain ⟨heq, hrest⟩ := hboth
      have hstore : k = k' := meets_unique (meets_instant.2 he) (heq ▸ meets_instant.2 hf)
      subst hstore
      exact ⟨heq, ih (fun e he => hinward e (List.mem_cons_of_mem _ he)) hpass hpass' hrest⟩

/-- Two courses of a timeless dialogue on the same store are the same when those who are watched answer alike. -/
theorem eq_of_takes {α : Type} {p : Run α} (hp : Timeless p) {r r' : Except Crash α} (ht : p.Takes t r)
    (ht' : p.Takes t' r') {watched : Event interface → Bool} (hwatched : ByQuestion watched)
    (hinward : ∀ e ∈ t, watched e = false → Inward e) (hpass : Passes chainId s t n)
    (hpass' : Passes chainId s t' m)
    (halike : AnsweredAlike ((gist t).filter watched) ((gist t').filter watched)) :
    gist t = gist t' ∧ r = r' ∧ n = m := by
  obtain ⟨hgist, hr⟩ : gist t = gist t' ∧ r = r' :=
    hp.eq_of_answeredAlike ht ht' (answeredAlike_of_passes hwatched hinward hpass hpass' halike)
  rw [← passes_gist, ← hgist, passes_gist] at hpass'
  exact ⟨hgist, hr, passes_unique hpass hpass'⟩

/-! ## A sender's part -/

/-- The rows that hold a sender's messages. -/
def ownRows (sender : String) (store : Store) : List Row :=
  store.rows.filter fun row => row.sender? = some sender

def ownIds (sender : String) (store : Store) : List MsgId :=
  (ownRows sender store).map Row.id

theorem mem_ownRows {row : Row} : row ∈ ownRows sender s ↔ row ∈ s.rows ∧ row.sender? = some sender := by
  simp [ownRows]

/-- When no rows have come, a sender's rows are those that it had. -/
theorem ownRows_restrict (h : n.Evolves s') (hlast : s'.lastId = n.lastId) :
    ownRows sender (s'.restrict (ownIds sender n)) = ownRows sender s' := by
  unfold ownRows Store.restrict
  rw [List.filter_filter]
  refine List.filter_congr fun row hrow => ?_
  by_cases hsender : row.sender? = some sender
  · obtain ⟨old, hold, hevolves⟩ := h.known row hrow (hlast ▸ h.lawful.bounded row hrow)
    have hmem : row.id ∈ ownIds sender n :=
      List.mem_map.2 ⟨old, mem_ownRows.2 ⟨hold, hevolves.sender?.symm.trans hsender⟩, hevolves.id.symm⟩
    simp [hsender, hmem]
  · simp [hsender]

/-- What is done for a sender once a batch is prepared. -/
def partOf (settings : Settings) (sender : String) : Except Crash (Except Error (Option Plan)) → Run Unit
  | .ok (.ok (some plan)) =>
    match plan.batches.find? fun batch => batch.msgs.sender = sender with
    | some batch => sendLogged settings plan.gasPrice batch
    | none => return
  | _ => return

variable {o : Except Crash (Except Error (Option Plan))}

theorem timeless_partOf : Timeless (partOf settings sender o) := by
  unfold partOf
  split
  · split
    · exact timeless_sendLogged _ _
    · trivial
  · trivial

theorem takes_partOf {r : Except Crash Unit} (h : (partOf settings sender o).Takes t r) :
    ∀ e ∈ deeds t, ∃ behalf, behalf.sender = sender ∧ SenderEvent behalf e := by
  unfold partOf at h
  split at h
  · split at h
    · next batch hfind =>
      have hsender : batch.msgs.sender = sender := by simpa using List.find?_some hfind
      exact fun e he => ⟨batch.behalf, hsender, senderEvent_of_takes h e he⟩
    · obtain ⟨rfl, _⟩ := h
      exact List.forall_mem_nil _
  · obtain ⟨rfl, _⟩ := h
    exact List.forall_mem_nil _

theorem takes_partOf_of_no_plan (h : ∀ plan, o ≠ .ok (.ok (some plan))) :
    (partOf settings sender o).Takes [] (.ok ()) := by
  rcases o with c | e | _ | plan
  · exact ⟨rfl, rfl⟩
  · exact ⟨rfl, rfl⟩
  · exact ⟨rfl, rfl⟩
  · exact absurd rfl (h plan)

theorem takes_partOf_of_plan {plan : Plan} (hnodup : (plan.batches.map fun batch => batch.msgs.sender).Nodup)
    (h : (∃ batch ∈ plan.batches, batch.msgs.sender = sender ∧
        (sendLogged settings plan.gasPrice batch).Takes x (.ok ())) ∨
      x = [] ∧ ∀ batch ∈ plan.batches, batch.msgs.sender ≠ sender) :
    (partOf settings sender (.ok (.ok (some plan)))).Takes x (.ok ()) := by
  unfold partOf
  dsimp only
  rcases h with ⟨batch, hbatch, rfl, htakes⟩ | ⟨rfl, hnobody⟩
  · cases hfind : plan.batches.find? fun other => other.msgs.sender = batch.msgs.sender with
    | none =>
      have hne := List.find?_eq_none.1 hfind batch hbatch
      simp at hne
    | some other =>
      have heq : other.msgs.sender = batch.msgs.sender := by simpa using List.find?_some hfind
      obtain rfl := List.inj_on_of_nodup_map hnodup (List.mem_of_find?_eq_some hfind) hbatch heq
      exact htakes
  · rw [List.find?_eq_none.2 fun batch hbatch => by simpa using hnobody batch hbatch]
    exact ⟨rfl, rfl⟩

/-- A run of a batch, as far as it concerns one sender: the preparation, and the sender's own part on its own rows. -/
structure Concerns (chainId : String) (settings : Settings) (sender : String) (u w x : List (Event interface))
    (o : Except Crash (Except Error (Option Plan))) (s n s' : Store) : Prop where
  prepares : (prepare settings).Takes u o
  prepared : Passes chainId s u n
  part : (partOf settings sender o).Takes x (.ok ())
  calls : callsFor sender (u ++ w) = callsFor sender x
  alone : Passes chainId (n.restrict (ownIds sender n)) x (s'.restrict (ownIds sender n))
  rows : ownRows sender (s'.restrict (ownIds sender n)) = ownRows sender s'

namespace MadeUp

variable {plan : Makeup} {batch : SenderBatch} {later : Store}

theorem mem_ownIds (h : MadeUp chainId settings plan s s') (hlater : s'.Evolves later)
    (hbatch : batch ∈ plan.batches) : ∀ id ∈ batch.msgs.ids, id ∈ ownIds batch.msgs.sender later := by
  intro id hid
  obtain ⟨row, hrow, heq, hsender⟩ := h.exists_row_of_evolves hlater hbatch hid
  exact List.mem_map.2 ⟨row, mem_ownRows.2 ⟨hrow, hsender⟩, heq⟩

theorem not_mem_ownIds (h : MadeUp chainId settings plan s s') (hlater : s'.Evolves later)
    (hbatch : batch ∈ plan.batches) (hne : batch.msgs.sender ≠ sender) :
    ∀ id ∈ batch.msgs.ids, id ∉ ownIds sender later := by
  intro id hid hmine
  obtain ⟨row, hrow, rfl⟩ := List.mem_map.1 hmine
  obtain ⟨hmem, hsender⟩ := mem_ownRows.1 hrow
  exact hne (Option.some.inj ((h.sender?_of_mem_ids hlater hbatch hmem hid).symm.trans hsender))

end MadeUp

theorem exists_concerns {r : Except Crash (Except Error Unit)} (h : (sendMsgBatch settings).Takes t r)
    (hcalm : ∀ e ∈ t, CalmEvent e) (hs : s.Lawful) (hpass : Passes chainId s t s') (sender : String) :
    ∃ u w x o n, t = u ++ w ∧ Concerns chainId settings sender u w x o s n s' := by
  rcases takes_sendMsgBatch_calm h hcalm with
    ⟨o, hprepare, hnone⟩ | ⟨plan, u, w, us, rfl, hprepare, hmerge, hends⟩
  · refine ⟨t, [], [], o, s', (List.append_nil t).symm, hprepare, hpass, takes_partOf_of_no_plan hnone, ?_, rfl,
      ownRows_restrict (.refl (evolves_of_passes hs hpass).lawful) rfl⟩
    rw [List.append_nil, ← callsFor_deeds, (takes_prepare hprepare).callsFor_eq_nil]
    rfl
  obtain ⟨n, hprepared, hsent⟩ := passes_append.1 hpass
  obtain ⟨m, opening, toPrices, gasPrice, made, rfl, hopens, hdeeds, hmade, hstarts⟩ :=
    exists_madeUp hprepare hs hprepared
  have hlater := evolves_of_passes hmade.evolves.lawful hstarts
  have hnodup := (List.nodup_append.1 hmade.parted.nodup_senders).1
  obtain ⟨x, v, hinterleave, hothers, hown⟩ := exists_part hnodup hmerge hends sender
  have hinside : ∀ e ∈ deeds x, Names (· ∈ ownIds sender n) e := by
    intro e he
    rcases hown with ⟨batch, hbatch, rfl, htakes⟩ | ⟨rfl, _⟩
    · exact (senderEvent_of_takes htakes e he).names.imp (hmade.mem_ownIds hlater hbatch)
    · exact absurd he List.not_mem_nil
  have houtside : ∀ e ∈ deeds v, Names (· ∉ ownIds sender n) e := by
    intro e he
    obtain ⟨other, hother, hne, hevent⟩ := hothers e he
    exact hevent.names.imp (hmade.not_mem_ownIds hlater hother hne)
  refine ⟨u, w, x, _, n, rfl, hprepare, hprepared, takes_partOf_of_plan hnodup hown, ?_, ?_, ?_⟩
  · rw [callsFor_append, ← callsFor_deeds, (takes_prepare hprepare).callsFor_eq_nil, List.nil_append,
      callsFor_of_interleave hinterleave hothers]
  · exact passes_deeds.1
      (passes_restrict (hinterleave.filter isDeed) hinside houtside (passes_deeds.2 hsent))
  · refine ownRows_restrict (evolves_of_passes hlater.lawful hsent) ?_
    refine lastId_of_names (p := fun _ => True) (fun e he => ?_) (passes_deeds.2 hsent)
    obtain ⟨batch, _, hevent⟩ := exists_sender_of_ends hmerge hends e he
    exact hevent.names.imp fun _ _ => trivial

/-! ## Two runs -/

/-- The clock, the keys and the prices. -/
def isCounsel : Event interface → Bool
  | ⟨.now, _⟩ | ⟨.signer _, _⟩ | ⟨.prices, _⟩ => true
  | _ => false

/-- What a batch is told before anybody sends. -/
def counsel (t : List (Event interface)) : List (Event interface) :=
  t.filter isCounsel

/-- Two runs make the same calls for a sender, and leave its rows in the same condition. -/
structure Undisturbed (sender : String) (t t' : List (Event interface)) (s s' : Store) : Prop where
  calls : callsFor sender (gist t) = callsFor sender (gist t')
  rows : ownRows sender s = ownRows sender s'

theorem byQuestion_isCallFor : ByQuestion (isCallFor sender) :=
  byQuestion_of_answers fun question _ _ => by cases question <;> rfl

theorem byQuestion_isCounsel : ByQuestion isCounsel :=
  byQuestion_of_answers fun question _ _ => by cases question <;> rfl

theorem Prepares.inward {o : Except Crash (Except Error (Option Plan))} (h : Prepares settings t o) :
    ∀ e ∈ t, isCounsel e = false → Inward e := by
  have hground {e : Event interface} (h : Groundwork e) (hnot : isCounsel e = false) : Inward e := by
    cases h with
    | loading | moving => trivial
    | clockRead | asking => cases hnot
  intro e he hnot
  rcases h.groundwork with hgroundwork | ⟨fs, toPrices, rfl, hgroundwork, _⟩
  · exact hground (hgroundwork e he) hnot
  · rcases List.mem_append.1 he with he | he
    · exact hground (hgroundwork e he) hnot
    · obtain rfl := List.mem_singleton.1 he
      cases hnot

theorem SenderEvent.inward {behalf : Behalf} (h : SenderEvent behalf e)
    (hnot : isCallFor behalf.sender e = false) : Inward e := by
  cases h with
  | plain plain =>
    cases plain with
    | call => simp [isCallFor, called] at hnot
    | errored => trivial
  | broadcast => simp [isCallFor, called] at hnot
  | broadcasted | confirmed => trivial

theorem inward_of_deeds {watched : Event interface → Bool} (h : ∀ e ∈ deeds t, watched e = false → Inward e) :
    ∀ e ∈ t, watched e = false → Inward e :=
  forall_of_deeds (fun _ _ _ => trivial) (fun _ _ => trivial) h

variable {o o' : Except Crash (Except Error (Option Plan))} {u' w' x' : List (Event interface)} {n' s'' : Store}

theorem Concerns.callsFor_gist (h : Concerns chainId settings sender u w x o s n s') :
    callsFor sender (gist (u ++ w)) = callsFor sender (gist x) :=
  calc
    callsFor sender (gist (u ++ w)) = gist (callsFor sender (u ++ w)) := byQuestion_isCallFor.filter_gist
    _ = gist (callsFor sender x) := by rw [h.calls]
    _ = callsFor sender (gist x) := byQuestion_isCallFor.filter_gist.symm

theorem Concerns.undisturbed (h : Concerns chainId settings sender u w x o s n s')
    (h' : Concerns chainId settings sender u' w' x' o' s n' s'')
    (hcounsel : AnsweredAlike (counsel (gist (u ++ w))) (counsel (gist (u' ++ w'))))
    (hcalls : AnsweredAlike (callsFor sender (gist (u ++ w))) (callsFor sender (gist (u' ++ w')))) :
    Undisturbed sender (u ++ w) (u' ++ w') s' s'' := by
  -- the preparation is told the same in both runs, so it makes the same plan on the same store
  have hprefix : AnsweredAlike (counsel (gist u)) (counsel (gist u')) := by
    unfold counsel gist at hcounsel
    rw [List.map_append, List.map_append, List.filter_append, List.filter_append] at hcounsel
    exact hcounsel.of_append
  obtain ⟨_, rfl, rfl⟩ := eq_of_takes timeless_prepare h.prepares h'.prepares byQuestion_isCounsel
    (inward_of_deeds (takes_prepare h.prepares).inward) h.prepared h'.prepared hprefix
  -- from there on the sender's own part depends on its own rows and the answers to its own calls
  have hinward : ∀ e ∈ x, isCallFor sender e = false → Inward e := by
    refine inward_of_deeds fun e he hnot => ?_
    obtain ⟨behalf, rfl, hevent⟩ := takes_partOf h.part e he
    exact hevent.inward hnot
  rw [h.callsFor_gist, h'.callsFor_gist] at hcalls
  obtain ⟨hgist, _, hstores⟩ :=
    eq_of_takes timeless_partOf h.part h'.part byQuestion_isCallFor hinward h.alone h'.alone hcalls
  refine ⟨?_, ?_⟩
  · rw [h.callsFor_gist, h'.callsFor_gist, hgist]
  · rw [← h.rows, ← h'.rows, hstores]

/-- Two batches on the same store, which are told the same time, keys and prices, and of which the clients answer the
calls for one sender alike, make the same calls for this sender and leave its rows in the same condition. What the
clients answer to the other senders, and how long anybody takes to answer, makes no difference. -/
theorem undisturbed_of_batch {E E' : Type} (others : Collaborators E) (calm : others.Calm)
    (others' : Collaborators E') (calm' : others'.Calm) (chainId : String) (env : E) (env' : E') (store : Store)
    (hs : store.Lawful) (settings : Settings) (sender : String)
    (hcounsel : AnsweredAlike
      (counsel (gist (events (World.session chainId others env store [.sendMsgBatch settings]).history)))
      (counsel (gist (events (World.session chainId others' env' store [.sendMsgBatch settings]).history))))
    (hcalls : AnsweredAlike
      (callsFor sender (gist (events (World.session chainId others env store [.sendMsgBatch settings]).history)))
      (callsFor sender
        (gist (events (World.session chainId others' env' store [.sendMsgBatch settings]).history)))) :
    Undisturbed sender
      (events (World.session chainId others env store [.sendMsgBatch settings]).history)
      (events (World.session chainId others' env' store [.sendMsgBatch settings]).history)
      (World.session chainId others env store [.sendMsgBatch settings]).store
      (World.session chainId others' env' store [.sendMsgBatch settings]).store := by
  obtain ⟨⟨r, htakes⟩, hrecorded, _⟩ := course_of_command chainId others env store (.sendMsgBatch settings)
  obtain ⟨⟨r', htakes'⟩, hrecorded', _⟩ := course_of_command chainId others' env' store (.sendMsgBatch settings)
  obtain ⟨o, ho⟩ := takes_outcome htakes
  obtain ⟨o', ho'⟩ := takes_outcome htakes'
  have hcalm := calmEvents_of_command chainId calm env store (.sendMsgBatch settings)
  have hcalm' := calmEvents_of_command chainId calm' env' store (.sendMsgBatch settings)
  obtain ⟨u, w, x, _, n, hevents, hconcerns⟩ := exists_concerns ho hcalm hs hrecorded.passes sender
  obtain ⟨u', w', x', _, n', hevents', hconcerns'⟩ := exists_concerns ho' hcalm' hs hrecorded'.passes sender
  rw [hevents, hevents'] at hcounsel hcalls ⊢
  exact hconcerns.undisturbed hconcerns' hcounsel hcalls

/-- As `obliging`, but the client serves one sender only; the others it fails, after some time. -/
def obligingOnly (sender : String) : Collaborators Nat :=
  { obliging with
    client := fun behalf call failures =>
      if behalf.sender = sender then obliging.client behalf call failures
      else (⟨1, .ok (.error (.internal "not served"))⟩, failures) }

theorem calm_obligingOnly (sender : String) : (obligingOnly sender).Calm := by
  intro behalf call failures c
  dsimp only [obligingOnly]
  split
  · exact calm_obliging behalf call failures c
  · exact nofun

/-- A payment by another address, as short as the first one. -/
def otherPayment : Envelope :=
  ⟨Message.sendUrl, [10, 8, 98, 49, 121, 48, 118, 102, 54, 113]⟩

/-- A payment of each of two senders. -/
def twoSenders : Store :=
  (World.session "chain" obliging 0 emptyStore
    [.enqueue "contract" payment, .enqueue "contract" otherPayment]).store

/-- The first sender's payment is confirmed whether or not the client serves the second sender. -/
theorem undisturbed_of_twoSenders :
    (World.session "chain" obliging 0 twoSenders [.sendMsgBatch (limitedSettings 2)]).store.rows.map Row.state =
        [.confirmed, .confirmed] ∧
      (World.session "chain" (obligingOnly "a12uel5l") 0 twoSenders
        [.sendMsgBatch (limitedSettings 2)]).store.rows.map Row.state = [.confirmed, .started] ∧
      Undisturbed "a12uel5l"
        (events (World.session "chain" obliging 0 twoSenders [.sendMsgBatch (limitedSettings 2)]).history)
        (events (World.session "chain" (obligingOnly "a12uel5l") 0 twoSenders
          [.sendMsgBatch (limitedSettings 2)]).history)
        (World.session "chain" obliging 0 twoSenders [.sendMsgBatch (limitedSettings 2)]).store
        (World.session "chain" (obligingOnly "a12uel5l") 0 twoSenders
          [.sendMsgBatch (limitedSettings 2)]).store :=
  ⟨by decide +kernel, by decide +kernel, undisturbed_of_batch obliging calm_obliging (obligingOnly "a12uel5l")
    (calm_obligingOnly _) "chain" 0 0 twoSenders (lawful_session "chain" obliging 0 lawful_emptyStore _)
    (limitedSettings 2) "a12uel5l" (by decide +kernel) (by decide +kernel)⟩

end ReportRelay.Dispatch
