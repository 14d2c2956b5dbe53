import ReportRelay.Proofs.Dispatch.CommandCourse

/-!
# The price of what is signed

A batch asks for prices once, before anything is signed, and all that its senders sign is signed at the price that
comes of the answer. Nothing else that a dispatcher does is signed or asks for prices.
-/

namespace ReportRelay.Dispatch

variable {t u v es : List (Event interface)} {settings : Settings} {gasPrice : DecCoin} {batch : SenderBatch}

/-! ## Capped prices -/

/-- A price in the gas token: the estimated amount, or the maximum where there is one and it is lower. -/
structure FairlyPriced (settings : Settings) (estimated price : DecCoin) : Prop where
  denom : price.denom = settings.gasToken
  uncapped : (∀ max, settings.maxGasPrice = some max → ¬max < estimated.amount) → price.amount = estimated.amount
  capped : ∀ max, settings.maxGasPrice = some max → max < estimated.amount → price.amount = max
  bounded : ∀ max, settings.maxGasPrice = some max → price.amount ≤ max

theorem cappedPrice_of_none (hmax : settings.maxGasPrice = none) (estimated : DecCoin) :
    (cappedPrice settings estimated).1 = estimated := by
  rw [cappedPrice, hmax]

theorem cappedPrice_of_some {max : Decimal} (hmax : settings.maxGasPrice = some max) (estimated : DecCoin) :
    (cappedPrice settings estimated).1 = ⟨settings.gasToken, estimated.amount.min max⟩ := by
  have hself : max.min max = max := by
    unfold Decimal.min
    exact ite_self max
  unfold cappedPrice GasPrice.lowest
  rw [hmax]
  dsimp only
  rw [hself]
  split_ifs <;> rfl

theorem fairlyPriced_cappedPrice {estimated : DecCoin} (hdenom : estimated.denom = settings.gasToken) :
    FairlyPriced settings estimated (cappedPrice settings estimated).1 := by
  cases hmax : settings.maxGasPrice with
  | none =>
    rw [cappedPrice_of_none hmax]
    constructor
    · exact hdenom
    · intro _
      rfl
    · intro max hsome
      cases hmax.symm.trans hsome
    · intro max hsome
      cases hmax.symm.trans hsome
  | some max =>
    rw [cappedPrice_of_some hmax]
    constructor
    · rfl
    · intro hlow
      exact if_neg (hlow max hmax)
    · intro other hsome hlt
      cases hmax.symm.trans hsome
      exact if_pos hlt
    · intro other hsome
      cases hmax.symm.trans hsome
      change ¬max < estimated.amount.min max
      unfold Decimal.min
      split_ifs with hlt
      · exact Int.lt_irrefl _
      · exact hlt

/-! ## Signings -/

/-- The transaction that is to be signed. -/
def signed? : Event interface → Option UnsignedTx
  | ⟨.client _ (.createAndSign tx _), _⟩ => some tx
  | _ => none

/-- What the event signs, it signs at this price. -/
def SignsAt (gasPrice : DecCoin) (e : Event interface) : Prop :=
  ∀ tx, signed? e = some tx → tx.gasPrice = gasPrice

theorem Abandons.signsAt {ids : List MsgId} {failure : Failure} {r : Except Crash (Except Error Unit)}
    (h : Abandons ids failure es r) : ∀ e ∈ es, SignsAt gasPrice e := by
  cases h with
  | crashed => exact List.forall_mem_nil _
  | failed => exact List.forall_mem_singleton.2 nofun

theorem Cancels.signsAt {failed cancelled : List MsgId} {r : Except Crash (Except Error Unit)}
    (h : Cancels failed cancelled es r) : ∀ e ∈ es, SignsAt gasPrice e := by
  cases h with
  | stuck | alone => exact List.forall_mem_singleton.2 nofun
  | both => exact List.forall_mem_cons.2 ⟨nofun, List.forall_mem_singleton.2 nofun⟩

theorem signsAt_createAndSign {account : Account} {gasUsed height : Nat} {reply : Reply Bytes} :
    SignsAt gasPrice (called batch.behalf
      (.createAndSign (batch.unsignedTx settings gasPrice account gasUsed height) batch.signer) reply) := by
  intro tx htx
  cases htx
  rfl

theorem Signs.signsAt {tx : UnsignedTx} {bytes : Bytes} (h : Signs settings gasPrice batch es tx bytes) :
    ∀ e ∈ es, SignsAt gasPrice e := by
  cases h
  simp only [List.forall_mem_cons]
  exact ⟨nofun, nofun, nofun, nofun, signsAt_createAndSign, List.forall_mem_nil _⟩

theorem Unsent.signsAt {r : Except Crash (Except Error Unit)} (h : Unsent settings gasPrice batch es r) :
    ∀ e ∈ es, SignsAt gasPrice e := by
  cases h with
  | noAccount => exact List.forall_mem_singleton.2 nofun
  | notSimulated => exact List.forall_mem_cons.2 ⟨nofun, List.forall_mem_singleton.2 nofun⟩
  | cancelled _ _ _ cancels => exact List.forall_mem_cons.2 ⟨nofun, List.forall_mem_cons.2 ⟨nofun, cancels.signsAt⟩⟩
  | notEstimated _ _ _ _ abandons =>
    simp only [List.forall_mem_cons]
    exact ⟨nofun, nofun, nofun, abandons.signsAt⟩
  | noHeight =>
    simp only [List.forall_mem_cons]
    exact ⟨nofun, nofun, nofun, nofun, List.forall_mem_nil _⟩
  | notSigned _ _ _ _ _ _ abandons =>
    simp only [List.forall_mem_cons]
    exact ⟨nofun, nofun, nofun, nofun, signsAt_createAndSign, abandons.signsAt⟩

theorem Broadcasts.signsAt {behalf : Behalf} {tx : Bytes} {r : Except Crash (Except Error String)}
    (h : Broadcasts behalf tx es r) : ∀ e ∈ es, SignsAt gasPrice e := by
  cases h with
  | failed | rejected => exact List.forall_mem_singleton.2 nofun
  | unrecorded | recorded => exact List.forall_mem_cons.2 ⟨nofun, List.forall_mem_singleton.2 nofun⟩

/-- Neither signs anything nor asks for prices. -/
def Priceless (e : Event interface) : Prop :=
  signed? e = none ∧ ∀ reply, e ≠ pricing reply

theorem ConfirmCourse.priceless {behalf : Behalf} {txHash : String} {r : Except Crash (Except Error Unit)}
    (h : ConfirmCourse settings behalf txHash es r) : ∀ e ∈ es, Priceless e := by
  obtain ⟨_, hconcludes⟩ := h
  refine List.forall_mem_append.2 ⟨?_, ?_⟩
  · intro e he
    obtain ⟨reply, _, rfl⟩ := List.mem_map.1 he
    exact ⟨rfl, nofun⟩
  · cases hconcludes with
    | crashed => exact List.forall_mem_nil _
    | confirmed | failed | unknown => exact List.forall_mem_singleton.2 ⟨rfl, nofun⟩

theorem Priceless.signsAt {e : Event interface} (h : Priceless e) : SignsAt gasPrice e := by
  intro tx htx
  rw [h.1] at htx
  cases htx

theorem SenderCourse.signsAt {r : Except Crash (Except Error Unit)} (h : SenderCourse settings gasPrice batch es r) :
    ∀ e ∈ es, SignsAt gasPrice e := by
  cases h with
  | unsent unsent => exact unsent.signsAt
  | refused signs broadcasts abandons =>
    simp only [List.forall_mem_append]
    exact ⟨signs.signsAt, broadcasts.signsAt, abandons.signsAt⟩
  | sent signs broadcasts confirms =>
    simp only [List.forall_mem_append]
    exact ⟨signs.signsAt, broadcasts.signsAt, fun e he => (confirms.priceless e he).signsAt⟩

/-! ## Courses -/

theorem Groundwork.priceless {e : Event interface} (h : Groundwork e) : Priceless e := by
  cases h <;> exact ⟨rfl, nofun⟩

theorem ConfirmsInOrder.priceless {txs : List (String × Behalf)} (h : ConfirmsInOrder settings txs es) :
    ∀ e ∈ es, Priceless e := by
  induction h with
  | done => exact List.forall_mem_nil _
  | next first _ ih => exact List.forall_mem_append.2 ⟨first.priceless, ih⟩
  | crashed first => exact first.priceless

theorem priceless_of_deeds (h : ∀ e ∈ deeds t, Priceless e) : ∀ e ∈ t, Priceless e := by
  apply forall_of_deeds _ _ h
  · intro line said
    exact ⟨rfl, nofun⟩
  · intro nanos
    exact ⟨rfl, nofun⟩

/-- The sweep never signs, and it needs no prices. -/
theorem priceless_of_sweep {r : Except Crash (Except Error Unit)} (h : (confirmAnyUnconfirmed settings).Takes t r) :
    ∀ e ∈ deeds t, Priceless e := by
  unfold confirmAnyUnconfirmed at h
  rcases Attempt.takes_bind.1 h with ⟨failure, hf, _⟩ | ⟨rows, u, v, rfl, hu, hv⟩
  · obtain ⟨a, hdeeds, _⟩ := takes_load hf
    rw [hdeeds]
    exact List.forall_mem_singleton.2 ⟨rfl, nofun⟩
  obtain ⟨a, hdeeds, _⟩ := takes_load hu
  obtain ⟨o, hall, _⟩ := Attempt.takes_ofDialogue.1 hv
  obtain ⟨us, hmerge, heach, _⟩ := Dialogue.exists_merge_of_takes_all nonempty_answer hall
  rw [deeds_append, hdeeds]
  refine List.forall_mem_cons.2 ⟨⟨rfl, nofun⟩, fun e he => ?_⟩
  obtain ⟨hev, hdeed⟩ := List.mem_filter.1 he
  obtain ⟨w, hw, hew⟩ := hmerge.mem_iff.1 hev
  obtain ⟨p, ps₁, ps₂, _, _, hps, _, ⟨⟨y, s, htakes⟩, _⟩, _⟩ := exists_split_of_mem heach hw
  have hp : p ∈ sweepOf settings rows := by
    rw [hps]
    exact List.mem_append_right _ List.mem_cons_self
  obtain ⟨sender, _, rfl⟩ := List.mem_map.1 hp
  apply (takes_confirmInOrder htakes).priceless e
  exact List.mem_filter.2 ⟨List.mem_append_left y hew, hdeed⟩

/-- A course in which all that is signed is signed at one price: the one that comes of the first answer about
prices, under a cap. -/
inductive PricedCourse (settings : Settings) : List (Event interface) → Prop
  | unsigned {es : List (Event interface)} (unsigned : ∀ e ∈ es, signed? e = none) : PricedCourse settings es
  | priced {before after : List (Event interface)} {toPrices : Reply Prices} {prices : Prices} {estimated : DecCoin}
    (priceless : ∀ e ∈ before, Priceless e) (prices_eq : toPrices.outcome = .ok (.ok prices))
    (found : prices.find? settings.gasToken = some estimated)
    (signed : ∀ e ∈ after, SignsAt (cappedPrice settings estimated).1 e) :
    PricedCourse settings (before ++ pricing toPrices :: after)

namespace PricedCourse

theorem of_priceless (h : ∀ e ∈ es, Priceless e) : PricedCourse settings es :=
  .unsigned fun e he => (h e he).1

theorem append (hu : ∀ e ∈ u, Priceless e) (hv : PricedCourse settings v) : PricedCourse settings (u ++ v) := by
  cases hv with
  | unsigned unsigned =>
    apply PricedCourse.unsigned
    exact List.forall_mem_append.2 ⟨fun e he => (hu e he).1, unsigned⟩
  | priced priceless prices_eq found signed =>
    rw [← List.append_assoc]
    exact .priced (List.forall_mem_append.2 ⟨hu, priceless⟩) prices_eq found signed

theorem of_append (h : PricedCourse settings (u ++ v)) : PricedCourse settings u := by
  generalize hes : u ++ v = es at h
  cases h with
  | unsigned unsigned =>
    subst hes
    exact .unsigned fun e he => unsigned e (List.mem_append_left v he)
  | @priced before after _ _ _ priceless prices_eq found signed =>
    rcases List.append_eq_append_iff.1 hes with ⟨w, rfl, _⟩ | ⟨w, rfl, hw⟩
    · exact of_priceless fun e he => priceless e (List.mem_append_left w he)
    · rcases List.append_eq_cons_iff.1 hw.symm with ⟨rfl, _⟩ | ⟨w, rfl, rfl⟩
      · rw [List.append_nil]
        exact of_priceless priceless
      · exact .priced priceless prices_eq found fun e he => signed e (List.mem_append_left v he)

/-- Log lines and waits are not signed. -/
theorem of_deeds (h : PricedCourse settings (deeds t)) : PricedCourse settings t := by
  generalize hdeeds : deeds t = es at h
  cases h with
  | unsigned unsigned =>
    subst hdeeds
    exact .unsigned (forall_of_deeds (fun _ _ => rfl) (fun _ => rfl) unsigned)
  | priced priceless prices_eq found signed =>
    obtain ⟨before, rest, rfl, rfl, hrest⟩ := List.filter_eq_append_iff.1 hdeeds
    obtain ⟨skipped, after, rfl, hskipped, _, rfl⟩ := List.filter_eq_cons_iff.1 hrest
    have hskipped : deeds skipped = [] := List.filter_eq_nil_iff.2 hskipped
    have hbefore : ∀ e ∈ before ++ skipped, Priceless e := by
      apply priceless_of_deeds
      rwa [deeds_append, hskipped, List.append_nil]
    rw [← List.append_assoc]
    refine .priced hbefore prices_eq found ?_
    exact forall_of_deeds (fun _ _ => nofun) (fun _ => nofun) signed

end PricedCourse

theorem pricedCourse_of_batch {r : Except Crash (Except Error Unit)} (h : (sendMsgBatch settings).Takes t r) :
    PricedCourse settings (deeds t) := by
  rcases cases_of_sendMsgBatch h with ⟨o, hprepare, _⟩ | ⟨plan, u, v, o, rfl, hu, hall⟩
  · rcases (takes_prepare hprepare).groundwork with hground | ⟨fs, toPrices, hdeeds, hground, _⟩
    · exact .of_priceless fun e he => (hground e he).priceless
    · rw [hdeeds]
      apply PricedCourse.unsigned
      exact List.forall_mem_append.2 ⟨fun e he => (hground e he).priceless.1, List.forall_mem_singleton.2 rfl⟩
  · obtain ⟨m, opening, toPrices, prices, estimated, hopens, hprices, hfound, hdeeds, rfl⟩ :=
      (takes_prepare hu).exists_makeup
    obtain ⟨us, hmerge, hbegun, _⟩ := exists_courses_of_sends hall
    have hsigned : ∀ e ∈ deeds v, SignsAt (cappedPrice settings estimated).1 e := by
      intro e he
      obtain ⟨w, hw, hew⟩ := hmerge.mem_iff.1 he
      obtain ⟨batch, _, _, _, _, _, _, ⟨x, o', hcourse⟩, _⟩ := exists_split_of_mem hbegun hw
      exact hcourse.signsAt e (List.mem_append_left x hew)
    have hground : ∀ e ∈ opening ++ moves (starting m.batches) .started, Priceless e := by
      intro e he
      rcases List.mem_append.1 he with he | he
      · exact (hopens.groundwork e he).priceless
      · exact (groundwork_moves e he).priceless
    have hcourse := PricedCourse.priced hground hprices hfound hsigned
    rwa [deeds_append, hdeeds, ← List.append_assoc, List.append_assoc]

/-! ## Commands -/

/-- The command sends a batch under these settings. -/
inductive Command.SendsUnder (settings : Settings) : Command → Prop
  | batch : SendsUnder settings (.sendMsgBatch settings)
  | cycle : SendsUnder settings (.pollCycle settings)

/-- Only a command that sends a batch signs anything, and it signs all of it at one price. -/
theorem cases_of_pricing {command : Command} {r : Except Crash Unit} (h : command.dialogue.Takes t r) :
    (∀ e ∈ t, signed? e = none) ∨ ∃ settings, command.SendsUnder settings ∧ PricedCourse settings t := by
  cases command with
  | enqueue contractId envelope =>
    obtain ⟨o, ho⟩ := takes_outcome h
    refine .inl fun e he => (priceless_of_deeds ?_ e he).1
    rcases deeds_of_enqueue ho with hdeeds | ⟨now, typeUrl, raw, a, hdeeds⟩
    · rw [hdeeds]
      exact List.forall_mem_nil _
    · rw [hdeeds]
      exact List.forall_mem_cons.2 ⟨⟨rfl, nofun⟩, List.forall_mem_singleton.2 ⟨rfl, nofun⟩⟩
  | confirmAnyUnconfirmed settings =>
    obtain ⟨o, ho⟩ := takes_outcome h
    exact .inl fun e he => (priceless_of_deeds (priceless_of_sweep ho) e he).1
  | sendMsgBatch settings =>
    obtain ⟨o, ho⟩ := takes_outcome h
    exact .inr ⟨settings, .batch, (pricedCourse_of_batch ho).of_deeds⟩
  | pollCycle settings =>
    obtain ⟨u, v, o, o', hdeeds, hu, hv⟩ := exists_halves h
    refine .inr ⟨settings, .cycle, .of_deeds ?_⟩
    rw [hdeeds]
    exact (pricedCourse_of_batch hv).append (priceless_of_sweep hu)

end ReportRelay.Dispatch
