import ReportRelay.Proofs.Dispatch.Leftovers
import ReportRelay.Proofs.Dispatch.Parts
import ReportRelay.Proofs.Dispatch.Reach
import ReportRelay.Proofs.Dispatch.Sweep

/-!
# What is still in flight when a sender broadcasts

A cycle sweeps before it sends, so that what an earlier run has left broadcasted is resolved first. The sweep loads no
more rows than fit in a batch. What it leaves out is still broadcasted when its sender broadcasts anew, and nothing
else is.
-/

namespace ReportRelay.Dispatch

variable {chainId : String} {s s' n : Store} {settings : Settings} {gasPrice : DecCoin} {batch : SenderBatch}
  {behalf : Behalf} {t u v w x y es : List (Event interface)} {e : Event interface} {row : Row} {sender : String}

/-- The rows of a sender whose transactions are not resolved. -/
def inFlight (chainId : String) (sender : String) (store : Store) : List Row :=
  store.rows.filter fun row => row.chainId = chainId ∧ row.sender? = some sender ∧ row.state = .broadcasted

/-- Whenever a transaction is broadcast, its sender has nothing else in flight. -/
def NoOverlap (chainId : String) (history : List Moment) : Prop :=
  ∀ moment ∈ history, ∀ behalf, sent? moment.event = some behalf → inFlight chainId behalf.sender moment.store = []

theorem mem_inFlight : row ∈ inFlight chainId sender s ↔
    row ∈ s.rows ∧ row.chainId = chainId ∧ row.sender? = some sender ∧ row.state = .broadcasted := by
  simp [inFlight]

/-! ## What puts messages in flight -/

/-- The event puts the message in flight. -/
def Launches (id : MsgId) (e : Event interface) : Prop :=
  ∃ ids txHash, move? e = some (ids, .broadcasted, txHash) ∧ id ∈ ids

theorem mem_or_launched (h : s.Lawful) (hpass : Passes chainId s t s') (hrow : row ∈ s'.rows)
    (hstate : row.state = .broadcasted) : row ∈ s.rows ∨ ∃ e ∈ t, Launches row.id e := by
  have hmoved := mem_or_moved h hpass hrow (by rw [hstate]; nofun)
  rwa [hstate] at hmoved

theorem Quiet.not_launches {id : MsgId} (h : Quiet e) : ¬Launches id e := by
  rintro ⟨ids, txHash, hmove, _⟩
  obtain ⟨question, a⟩ := e
  cases question with
  | store statement =>
    cases statement with
    | update =>
      cases hmove
      cases h
    | insert | load | find => cases hmove
  | storeAll => exact h
  | client | signer | prices | now | turn | log => cases hmove

theorem not_launches_of_moves {id : MsgId} {ids : List MsgId} {state : MsgState} (hstate : state ≠ .broadcasted) :
    ∀ e ∈ moves ids state, ¬Launches id e := by
  refine forall_mem_moves ?_
  rintro ⟨_, _, hmove, _⟩
  cases hmove
  exact hstate rfl

theorem SweepCourse.not_launches {id : MsgId} (h : SweepCourse es) : ∀ e ∈ es, ¬Launches id e := by
  intro e he
  rcases h.event e he with hquiet | ⟨ids, a, rfl⟩
  · exact hquiet.not_launches
  · rintro ⟨_, _, hmove, _⟩
    cases hmove

/-- The place of the only element with a property. -/
theorem eq_of_sole {α : Type} {p : α → Prop} {as bs cs ds : List α} {b d : α} (h : cs ++ d :: ds = as ++ b :: bs)
    (hd : p d) (has : ∀ a ∈ as, ¬p a) (hbs : ∀ b ∈ bs, ¬p b) : cs = as := by
  rcases exists_of_append_eq_append h.symm with ⟨_ | ⟨x, xs⟩, rfl, hrest⟩ | ⟨xs, _, rfl⟩
  · exact List.append_nil as
  · cases hrest
    exact absurd hd (hbs d (List.mem_append_right _ List.mem_cons_self))
  · exact absurd hd (has d (List.mem_append_right _ List.mem_cons_self))

theorem Broadcasts.exists_cons {tx : Bytes} {o : Except Crash (Except Error String)}
    (h : Broadcasts behalf tx es o) :
    ∃ first rest, es = first :: rest ∧ ∀ e ∈ rest, ¬isBroadcast e = true := by
  cases h with
  | failed | rejected => exact ⟨_, [], rfl, List.forall_mem_nil _⟩
  | unrecorded | recorded => exact ⟨_, _, rfl, List.forall_mem_singleton.2 nofun⟩

theorem Signs.eq_before {fs gs : List (Event interface)} {tx : UnsignedTx} {bytes : Bytes}
    {o : Except Crash (Except Error String)} (signs : Signs settings gasPrice batch es tx bytes)
    (broadcasts : Broadcasts batch.behalf bytes fs o) (hgs : ∀ e ∈ gs, isBroadcast e = false)
    (h : x ++ e :: y = es ++ (fs ++ gs)) (he : isBroadcast e = true) : x = es := by
  obtain ⟨first, rest, rfl, hrest⟩ := broadcasts.exists_cons
  refine eq_of_sole h he (fun e he => ?_) (List.forall_mem_append.2 ⟨hrest, fun e he => ?_⟩)
  · simp [(signs.plain e he).not_isBroadcast]
  · simp [hgs e he]

/-- Up to its broadcast, a sender's course moves nothing. -/
theorem SenderCourse.moves_none_before {r : Except Crash (Except Error Unit)}
    (h : SenderCourse settings gasPrice batch (x ++ e :: y) r) (he : isBroadcast e = true) :
    ∀ e' ∈ x, move? e' = none := by
  have hsigned {es : List (Event interface)} {tx : UnsignedTx} {bytes : Bytes}
      (signs : Signs settings gasPrice batch es tx bytes) : ∀ e' ∈ es, move? e' = none := by
    intro e' he'
    obtain ⟨call, reply, rfl, _⟩ := signs.called e' he'
    rfl
  generalize hes : x ++ e :: y = es at h
  cases h with
  | unsent unsent =>
    have hmem : e ∈ es := hes ▸ List.mem_append_right x List.mem_cons_self
    rw [(unsent.plain e hmem).not_isBroadcast] at he
    cases he
  | refused signs broadcasts abandons =>
    obtain rfl := signs.eq_before broadcasts (fun e he => (abandons.plain batch.behalf e he).not_isBroadcast) hes he
    exact hsigned signs
  | sent signs broadcasts confirms =>
    obtain rfl := signs.eq_before broadcasts confirms.not_isBroadcast hes he
    exact hsigned signs

/-! ## The cycle -/

/-- When a sender broadcasts, its course has moved nothing so far, and what the others have moved is not its own. -/
theorem not_launches_of_others {m : Makeup} {us : List (List (Event interface))}
    (hmade : MadeUp chainId settings m s s') (hmerge : Merge us w)
    (hends : List.Forall₂ (fun batch x => (sendLogged settings gasPrice batch).Takes x (.ok ())) m.batches us)
    (hsplit : deeds w = x ++ e :: y) (hsent : sent? e = some behalf) (hn : s'.Evolves n) (hrow : row ∈ n.rows)
    (hsender : row.sender? = some behalf.sender) : ∀ e' ∈ x, ¬Launches row.id e' := by
  obtain ⟨u, v, hinterleave, hothers, hown⟩ :=
    exists_part (List.nodup_append.1 hmade.parted.nodup_senders).1 hmerge hends behalf.sender
  have hdeeds : Interleave (deeds u) (deeds v) (x ++ e :: y) := hsplit ▸ hinterleave.filter isDeed
  obtain ⟨u₁, u₂, v₁, v₂, hu, hv, hbefore, hafter⟩ := hdeeds.exists_of_split
  have hnotOther : e ∉ deeds v := by
    intro he
    obtain ⟨other, _, hne, hevent⟩ := hothers e he
    exact hne (congrArg Behalf.sender (hevent.eq_of_sent? hsent)).symm
  obtain ⟨u₃, rfl⟩ : ∃ u₃, u₂ = e :: u₃ := by
    cases hafter with
    | left => exact ⟨_, rfl⟩
    | right => exact absurd (hv ▸ List.mem_append_right _ List.mem_cons_self) hnotOther
  intro e' he'
  rcases List.mem_append.1 (hbefore.perm.mem_iff.1 he') with he' | he'
  · rcases hown with ⟨batch, _, _, htakes⟩ | ⟨rfl, _⟩
    · obtain ⟨o, hcourse, _⟩ := takes_sendLogged htakes
      rw [hu] at hcourse
      have hnone := hcourse.moves_none_before (by rw [isBroadcast, hsent]; rfl) e' he'
      rintro ⟨_, _, hmove, _⟩
      rw [hnone] at hmove
      cases hmove
    · have hmem : e ∈ deeds [] := hu ▸ List.mem_append_right u₁ List.mem_cons_self
      cases hmem
  · obtain ⟨other, hother, hne, hevent⟩ := hothers e' (hv ▸ List.mem_append_left v₂ he')
    rintro ⟨ids, txHash, hmove, hid⟩
    by_cases hmem : row.id ∈ other.msgs.ids
    · have hsenders := hmade.sender?_of_mem_ids hn hother hrow hmem
      rw [hsender] at hsenders
      exact hne (Option.some.inj hsenders).symm
    · exact hevent.names.spares hmem ids _ txHash hmove hid

/-- Nothing is broadcast before there is a plan. -/
theorem Prepares.sent?_eq_none {r : Except Crash (Except Error (Option Plan))} (h : Prepares settings es r) :
    ∀ e ∈ es, sent? e = none := by
  have hsilent {e : Event interface} (h : Groundwork e) : sent? e = none := by
    cases h <;> rfl
  rcases h.groundwork with hgroundwork | ⟨fs, toPrices, rfl, hgroundwork, _⟩
  · exact fun e he => hsilent (hgroundwork e he)
  · exact List.forall_mem_append.2 ⟨fun e he => hsilent (hgroundwork e he), List.forall_mem_singleton.2 rfl⟩

/-- A cycle up to one of its broadcasts: a sweep, the preparation of a batch, and what its senders have done so far. -/
theorem exists_parts_of_broadcast {before after : List (Event interface)} {r : Except Crash Unit}
    (h : (pollCycle settings).Takes (before ++ e :: after) r) (hcalm : ∀ e' ∈ before ++ e :: after, CalmEvent e')
    (hsent : sent? e = some behalf) : ∃ sweep m opening toPrices gasPrice w us x,
      SweepCourse sweep ∧ Sweeps settings sweep ∧ Opens settings m opening ∧ Merge us w ∧
        List.Forall₂ (fun batch x => (sendLogged settings gasPrice batch).Takes x (.ok ())) m.batches us ∧
        deeds before = sweep ++ (opening ++ (moves (starting m.batches) .started ++ [pricing toPrices] ++ x)) ∧
        deeds w = x ++ e :: deeds after := by
  obtain ⟨u, v, o, o', hdeeds, hu, hv⟩ := exists_halves h
  obtain ⟨hcalmSweep, hcalmBatch⟩ := forall_of_deeds_eq (fun _ _ => trivial) (fun _ => trivial) hdeeds hcalm
  have hsweep := takes_confirmAnyUnconfirmed hu
  have hsweeps := takes_confirmAnyUnconfirmed_calm hu hcalmSweep
  rcases takes_sendMsgBatch_calm hv hcalmBatch with
    ⟨o'', hprepare, hnone⟩ | ⟨plan, p, w, us, rfl, hprepare, hmerge, hends⟩
  · exfalso
    have hmem : e ∈ deeds u ++ deeds v := by
      rw [← hdeeds]
      exact List.mem_filter.2 ⟨List.mem_append_right _ List.mem_cons_self, isDeed_of_sent? hsent⟩
    have hsilent := List.forall_mem_append.2 ⟨hsweep.sent?_eq_none, (takes_prepare hprepare).sent?_eq_none⟩
    rw [hsilent e hmem] at hsent
    cases hsent
  · obtain ⟨m, opening, toPrices, prices, estimated, hopens, _, _, hprepared, rfl⟩ :=
      (takes_prepare hprepare).exists_makeup
    have hparts : deeds (before ++ e :: after) = deeds u ++ deeds p ++ deeds w := by
      rw [hdeeds, deeds_append, List.append_assoc]
    have hsilent : ∀ e ∈ deeds u ++ deeds p, sent? e = none :=
      List.forall_mem_append.2 ⟨hsweep.sent?_eq_none, (takes_prepare hprepare).sent?_eq_none⟩
    obtain ⟨x, hbefore, hw⟩ := exists_of_sent? hparts hsilent rfl hsent
    rw [hprepared] at hbefore
    refine ⟨deeds u, m, opening, toPrices, _, w, us, x, hsweep, hsweeps, hopens, hmerge, hends, ?_, hw⟩
    rw [hbefore]
    simp only [List.append_assoc]

/-- What a cycle has left in flight when a sender broadcasts is what its sweep has left out. -/
theorem mem_inFlight_of_broadcast {before after : List (Event interface)} {r : Except Crash Unit}
    (h : (pollCycle settings).Takes (before ++ e :: after) r) (hcalm : ∀ e' ∈ before ++ e :: after, CalmEvent e')
    (hs : s.Lawful) (hpass : Passes chainId s before n) (hsent : sent? e = some behalf) :
    row ∈ inFlight chainId behalf.sender n ↔ row ∈ inFlight chainId behalf.sender s ∧
      row ∉ s.oldest chainId .broadcasted settings.maxMsgsPerBatch := by
  obtain ⟨sweep, m, opening, toPrices, gasPrice, w, us, x, hsweep, hsweeps, hopens, hmerge, hends, hdeeds, hw⟩ :=
    exists_parts_of_broadcast h hcalm hsent
  rw [← passes_deeds, hdeeds] at hpass
  have hcalmSweep : ∀ e' ∈ sweep, CalmEvent e' := by
    intro e' he'
    have hmem : e' ∈ deeds before := hdeeds ▸ List.mem_append_left _ he'
    exact hcalm e' (List.mem_append_left _ (List.mem_of_mem_filter hmem))
  obtain ⟨s₁, hswept, hbatch⟩ := passes_append.1 hpass
  have h₁ := evolves_of_passes hs hswept
  obtain ⟨s₂, hopening, hrest⟩ := passes_append.1 hbatch
  have hmade := hopens.madeUp h₁.lawful hopening
  have hn := evolves_of_passes hmade.evolves.lawful hrest
  rw [mem_inFlight, mem_inFlight]
  constructor
  · rintro ⟨hrow, hchain, hsender, hstate⟩
    have hold : row ∈ s.rows := by
      refine (mem_or_launched hs hpass hrow hstate).resolve_right ?_
      rintro ⟨e', he', hlaunches⟩
      simp only [List.mem_append, List.mem_singleton] at he'
      rcases he' with he' | he' | (he' | rfl) | he'
      · exact hsweep.not_launches e' he' hlaunches
      · exact (hopens.quiet e' he').not_launches hlaunches
      · exact not_launches_of_moves (by decide) e' he' hlaunches
      · obtain ⟨_, _, hmove, _⟩ := hlaunches
        cases hmove
      · exact not_launches_of_others hmade hmerge hends hw hsent hn hrow hsender e' he' hlaunches
    refine ⟨⟨hold, hchain, hsender, hstate⟩, fun hoffered => ?_⟩
    have hresolved := hsweeps.resolved hcalmSweep hs hswept hoffered
    exact hn.lawful.not_resolved hrow (by rw [hstate]; rfl) ((hmade.evolves.trans hn).resolved hresolved)
  · rintro ⟨⟨hrow, hchain, hsender, hstate⟩, hleftOut⟩
    refine ⟨?_, hchain, hsender, hstate⟩
    have hrow₁ := mem_of_spares hs hswept (hsweeps.spares hs hswept hrow hleftOut) hrow
    have hbeyond : row.id ∉ m.reach settings := by
      intro hreach
      rcases List.mem_append.1 (hmade.exists_loaded hrow₁ hreach) with hloaded | hloaded
      · have hstarted := (Store.mem_of_load hmade.leftover hloaded).2.2
        rw [hstate] at hstarted
        cases hstarted
      · have hunstarted := (Store.mem_of_load hmade.unstarted hloaded).2.2
        rw [hstate] at hunstarted
        cases hunstarted
    have hsenders : ∀ e' ∈ x, ∃ batch ∈ m.batches, SenderEvent batch.behalf e' := by
      intro e' he'
      refine exists_sender_of_ends hmerge hends e' ?_
      rw [hw]
      exact List.mem_append_left _ he'
    exact (hopens.reaches_of_senders hsenders).mem_of_passes h₁.lawful hbatch hrow₁ hbeyond

theorem eq_of_meets_of_sent? (h : Meets chainId e s s') (hsent : sent? e = some behalf) : s' = s := by
  obtain ⟨question, a⟩ := e
  cases question with
  | client => exact h
  | signer | prices | now | turn | store | storeAll | log => cases hsent

section
variable {E : Type} (others : Collaborators E) (calm : others.Calm) (chainId : String) (env : E) (store : Store)
  (hs : store.Lawful) (settings : Settings)
include calm hs

/-- When a sender broadcasts in a cycle of a calm client, the rows that it still has in flight are those of an earlier
run for which the sweep of this cycle had no room. -/
theorem mem_inFlight_of_cycle {moment : Moment}
    (hmoment : moment ∈ (World.session chainId others env store [.pollCycle settings]).history)
    (hsent : sent? moment.event = some behalf) :
    row ∈ inFlight chainId behalf.sender moment.store ↔ row ∈ inFlight chainId behalf.sender store ∧
      row ∉ store.oldest chainId .broadcasted settings.maxMsgsPerBatch := by
  obtain ⟨⟨r, htakes⟩, hrecorded, _⟩ := course_of_command chainId others env store (.pollCycle settings)
  have hcalmEvents := calmEvents_of_command chainId calm env store (.pollCycle settings)
  obtain ⟨before, after, hhistory⟩ := List.append_of_mem hmoment
  have hevents : events (World.session chainId others env store [.pollCycle settings]).history =
      events before ++ moment.event :: events after := by
    rw [hhistory, events, List.map_append, List.map_cons]
    rfl
  rw [hevents] at htakes hcalmEvents
  rw [hhistory] at hrecorded
  obtain ⟨⟨n, hbefore, hmeets⟩, _⟩ := hrecorded.split
  rw [eq_of_meets_of_sent? hmeets hsent]
  exact mem_inFlight_of_broadcast htakes hcalmEvents hs hbefore hsent

/-- In a cycle of a calm client, no sender broadcasts while it has something in flight, if and only if the sweep has
room for all rows that those who broadcast had in flight before. -/
theorem noOverlap_iff : NoOverlap chainId (World.session chainId others env store [.pollCycle settings]).history ↔
    ∀ moment ∈ (World.session chainId others env store [.pollCycle settings]).history,
      ∀ behalf, sent? moment.event = some behalf → ∀ row ∈ inFlight chainId behalf.sender store,
        row ∈ store.oldest chainId .broadcasted settings.maxMsgsPerBatch := by
  constructor
  · intro h moment hmoment behalf hsent row hrow
    by_contra hleftOut
    have hnow := (mem_inFlight_of_cycle others calm chainId env store hs settings hmoment hsent).2 ⟨hrow, hleftOut⟩
    rw [h moment hmoment behalf hsent] at hnow
    cases hnow
  · intro h moment hmoment behalf hsent
    refine List.eq_nil_iff_forall_not_mem.2 fun row hrow => ?_
    obtain ⟨hbefore, hleftOut⟩ :=
      (mem_inFlight_of_cycle others calm chainId env store hs settings hmoment hsent).1 hrow
    exact hleftOut (h moment hmoment behalf hsent row hbefore)

end

/-- As `obliging`, but the dispatcher is taken down when it looks up a transaction. -/
def interrupting : Collaborators Nat :=
  { obliging with
    client := fun behalf call failures =>
      match call with
      | .lookUp _ => (⟨0, .error .unnamed⟩, failures)
      | call => obliging.client behalf call failures }

/-- Two payments that were broadcast in one transaction before the dispatcher was taken down, and a new one. -/
def leftInFlight : Store :=
  (World.session "chain" interrupting 1 (payments 2)
    [.pollCycle (limitedSettings 1), .pollCycle (limitedSettings 1), .enqueue "contract" payment]).store

theorem lawful_leftInFlight : leftInFlight.Lawful :=
  lawful_session "chain" interrupting 1 (lawful_payments 2) _

/-- A sweep with room for both of them resolves them before the new one is broadcast. -/
theorem noOverlap_of_leftInFlight :
    leftInFlight.rows.map Row.state = [.broadcasted, .broadcasted, .unstarted] ∧
      (World.session "chain" obliging 0 leftInFlight [.pollCycle (limitedSettings 2)]).store.rows.map Row.state =
        [.confirmed, .confirmed, .confirmed] ∧
      NoOverlap "chain" (World.session "chain" obliging 0 leftInFlight [.pollCycle (limitedSettings 2)]).history :=
  ⟨by decide +kernel, by decide +kernel, (noOverlap_iff obliging calm_obliging "chain" 0 leftInFlight
    lawful_leftInFlight (limitedSettings 2)).2 (by decide +kernel)⟩

/-- A batch of one message: a transaction of two was left broadcasted, the sweep has room for one of them, and the new
message is broadcast while the other one is still in flight. -/
theorem not_noOverlap_of_leftInFlight : leftInFlight.Lawful ∧ ¬NoOverlap "chain"
    (World.session "chain" obliging 0 leftInFlight [.pollCycle (limitedSettings 1)]).history := by
  refine ⟨lawful_leftInFlight, fun h => ?_⟩
  have hsome : (World.session "chain" obliging 0 leftInFlight [.pollCycle (limitedSettings 1)]).history.any
      (fun moment => (sent? moment.event).any fun behalf => inFlight "chain" behalf.sender moment.store ≠ []) =
        true := by
    decide +kernel
  obtain ⟨moment, hmoment, hflight⟩ := List.any_eq_true.1 hsome
  obtain ⟨behalf, hsent, hne⟩ := (Option.any_eq_true _ _).1 hflight
  exact of_decide_eq_true hne (h moment hmoment behalf hsent)

end ReportRelay.Dispatch
