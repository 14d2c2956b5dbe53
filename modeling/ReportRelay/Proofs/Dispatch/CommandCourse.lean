import ReportRelay.Proofs.Dispatch.BatchCourse

/-!
# Courses of commands

Whatever a dispatcher is told to do, it first confirms what was left broadcasted, or does something quiet instead,
and then sends a batch, or again does something quiet.
-/

namespace ReportRelay.Dispatch

variable {t : List (Event interface)} {settings : Settings}

/-! ## The sweep -/

/-- The transactions of one sender are looked up in order; a crash ends the course. -/
inductive ConfirmsInOrder (settings : Settings) :
    List (String × Behalf) → List (Event interface) → Prop
  | done : ConfirmsInOrder settings [] []
  | next {txHash : String} {behalf : Behalf} {rest : List (String × Behalf)}
    {es fs : List (Event interface)} {a : Except Error Unit}
    (first : ConfirmCourse settings behalf txHash es (.ok a))
    (others : ConfirmsInOrder settings rest fs) :
    ConfirmsInOrder settings ((txHash, behalf) :: rest) (es ++ fs)
  | crashed {txHash : String} {behalf : Behalf} {rest : List (String × Behalf)}
    {es : List (Event interface)} {c : Crash}
    (first : ConfirmCourse settings behalf txHash es (.error c)) :
    ConfirmsInOrder settings ((txHash, behalf) :: rest) es

/-- The transactions are those that the rows carry, each with the messages that carry it. -/
def Carries (rows : List Row) (txs : List (String × Behalf)) : Prop :=
  ∀ tx ∈ txs, ∀ id ∈ tx.2.ids, ∃ row ∈ rows, row.id = id ∧ row.txHash = some tx.1

inductive SweepCourse : List (Event interface) → Prop
  | quiet {es : List (Event interface)} (quiet : ∀ e ∈ es, Quiet e) : SweepCourse es
  | swept {settings : Settings} {rows : List Row} {w : List (Event interface)}
    {us : List (List (Event interface))} (merged : Merge us w)
    (begun : ∀ u ∈ us, ∃ txs v, Carries rows txs ∧ ConfirmsInOrder settings txs (u ++ v)) :
    SweepCourse (loading .broadcasted settings.maxMsgsPerBatch (.ok rows) :: w)

theorem carries_transactionsOf (rows : List Row) (sender : String) :
    Carries rows (transactionsOf rows sender) := by
  intro tx htx id hid
  obtain ⟨txHash, _, rfl⟩ := List.mem_map.1 htx
  obtain ⟨row, hrow, rfl⟩ := List.mem_map.1 hid
  obtain ⟨hown, hhash⟩ := List.mem_filter.1 hrow
  exact ⟨row, (List.mem_filter.1 hown).1, rfl, of_decide_eq_true hhash⟩

theorem takes_confirmInOrder {txs : List (String × Behalf)} {r : Except Crash Unit}
    (h : (confirmInOrder settings txs).Takes t r) : ConfirmsInOrder settings txs (deeds t) := by
  induction txs generalizing t with
  | nil =>
    obtain ⟨rfl, _⟩ := h
    exact .done
  | cons tx txs ih =>
    obtain ⟨txHash, behalf⟩ := tx
    rcases Dialogue.takes_monad_bind.1 h with ⟨c, hc, _⟩ | ⟨outcome, u, v, rfl, hu, hv⟩
    · exact .crashed (takes_confirmTx hc)
    rw [deeds_append]
    refine .next (takes_confirmTx hu) ?_
    cases outcome with
    | ok =>
      obtain ⟨w, rfl, hw⟩ : ∃ w, v = w ∧ (confirmInOrder settings txs).Takes w r := ⟨v, rfl, hv⟩
      exact ih hw
    | error e =>
      rcases Dialogue.takes_monad_bind.1 hv with ⟨c, hc, _⟩ | ⟨_, w, x, rfl, hw, hx⟩
      · cases (takes_log hc).2
      · rw [deeds_append, (takes_log hw).1]
        exact ih hx

theorem takes_confirmAnyUnconfirmed {r : Except Crash (Except Error Unit)}
    (h : (confirmAnyUnconfirmed settings).Takes t r) : SweepCourse (deeds t) := by
  unfold confirmAnyUnconfirmed at h
  rcases Attempt.takes_bind.1 h with ⟨failure, hf, _⟩ | ⟨rows, u, v, rfl, hu, hv⟩
  · obtain ⟨a, hdeeds, _⟩ := takes_load hf
    rw [hdeeds]
    exact .quiet (List.forall_mem_singleton.2 trivial)
  obtain ⟨a, hdeeds, ha⟩ := takes_load hu
  cases ha
  obtain ⟨o, hall, _⟩ := Attempt.takes_ofDialogue.1 hv
  obtain ⟨us, hmerge, heach, _⟩ := Dialogue.exists_merge_of_takes_all nonempty_answer hall
  rw [deeds_append, hdeeds]
  refine .swept (hmerge.filter isDeed) fun w hw => ?_
  obtain ⟨x, hx, rfl⟩ := List.mem_map.1 hw
  obtain ⟨p, ps₁, ps₂, _, _, hps, _, ⟨⟨y, s, htakes⟩, _⟩, _⟩ := exists_split_of_mem heach hx
  have hp : p ∈ sweepOf settings rows := by
    rw [hps]
    exact List.mem_append_right _ List.mem_cons_self
  obtain ⟨sender, _, rfl⟩ := List.mem_map.1 hp
  have hcourse := takes_confirmInOrder htakes
  rw [deeds_append] at hcourse
  exact ⟨_, deeds y, carries_transactionsOf rows sender, hcourse⟩

theorem PlainEvent.quiet {behalf : Behalf} {e : Event interface} (h : PlainEvent behalf e) : Quiet e := by
  cases h with
  | @call call reply other =>
    cases call with
    | broadcast => cases other
    | account | simulateEach | simulate | latestBlock | createAndSign | lookUp => trivial
  | errored => rfl

theorem ConfirmsInOrder.event {txs : List (String × Behalf)} {es : List (Event interface)}
    (h : ConfirmsInOrder settings txs es) :
    ∀ e ∈ es, Quiet e ∨ ∃ ids a, e = moving ids .confirmed a := by
  have event {behalf : Behalf} {txHash : String} {es : List (Event interface)}
      {r : Except Crash (Except Error Unit)} (hcourse : ConfirmCourse settings behalf txHash es r) :
      ∀ e ∈ es, Quiet e ∨ ∃ ids a, e = moving ids .confirmed a := by
    intro e he
    rcases hcourse.plain_or_confirmed e he with hplain | ⟨a, rfl⟩
    · exact .inl hplain.quiet
    · exact .inr ⟨behalf.ids, a, rfl⟩
  induction h with
  | done => exact List.forall_mem_nil _
  | next first _ ih => exact List.forall_mem_append.2 ⟨event first, ih⟩
  | crashed first => exact event first

theorem SweepCourse.event {es : List (Event interface)} (h : SweepCourse es) :
    ∀ e ∈ es, Quiet e ∨ ∃ ids a, e = moving ids .confirmed a := by
  cases h with
  | quiet quiet => exact fun e he => .inl (quiet e he)
  | swept merged begun =>
    refine List.forall_mem_cons.2 ⟨.inl trivial, fun e he => ?_⟩
    obtain ⟨u, hu, heu⟩ := merged.mem_iff.1 he
    obtain ⟨txs, v, _, hcourse⟩ := begun u hu
    exact hcourse.event e (List.mem_append_left _ heu)

theorem SweepCourse.sent?_eq_none {es : List (Event interface)} (h : SweepCourse es) :
    ∀ e ∈ es, sent? e = none := by
  intro e he
  rcases h.event e he with hquiet | ⟨ids, a, rfl⟩
  · exact hquiet.sent?_eq_none
  · rfl

/-! ## Commands -/

/-- A message that is not admitted leaves no trace; an admitted one is put in after a look at the clock. -/
theorem deeds_of_enqueue {contractId : String} {envelope : Envelope}
    {r : Except Crash (Except Error MsgId)} (h : (enqueue contractId envelope).Takes t r) :
    deeds t = [] ∨ ∃ now typeUrl raw a,
      deeds t = [clockRead now, ⟨.store (.insert contractId typeUrl raw now), a⟩] := by
  unfold enqueue at h
  rcases Attempt.takes_bind.1 h with ⟨failure, ⟨rfl, _⟩, _⟩ | ⟨message, u, v, rfl, ⟨rfl, _⟩, hv⟩
  · exact .inl rfl
  rcases Attempt.takes_ofDialogue_bind.1 hv with ⟨c, hc, _⟩ | ⟨now, w, x, rfl, hw, hx⟩
  · obtain ⟨_, _, hnow⟩ := takes_ask.1 hc
    cases hnow
  obtain ⟨now', rfl, hnow⟩ := takes_ask.1 hw
  cases hnow
  obtain ⟨a, hdeeds, _⟩ := takes_execute hx
  rw [List.nil_append, deeds_append, hdeeds]
  exact .inr ⟨_, _, _, a, rfl⟩

theorem takes_enqueue {contractId : String} {envelope : Envelope}
    {r : Except Crash (Except Error MsgId)} (h : (enqueue contractId envelope).Takes t r) :
    ∀ e ∈ deeds t, Quiet e := by
  rcases deeds_of_enqueue h with hdeeds | ⟨now, typeUrl, raw, a, hdeeds⟩
  · rw [hdeeds]
    exact List.forall_mem_nil _
  · rw [hdeeds]
    exact List.forall_mem_cons.2 ⟨trivial, List.forall_mem_singleton.2 trivial⟩

/-- Putting a message in moves no other one. -/
theorem spares_of_enqueue {contractId : String} {envelope : Envelope} {id : MsgId}
    {r : Except Crash (Except Error MsgId)} (h : (enqueue contractId envelope).Takes t r) :
    ∀ e ∈ deeds t, Spares id e := by
  rcases deeds_of_enqueue h with hdeeds | ⟨now, typeUrl, raw, a, hdeeds⟩
  · rw [hdeeds]
    exact List.forall_mem_nil _
  · rw [hdeeds]
    exact List.forall_mem_cons.2 ⟨nofun, List.forall_mem_singleton.2 nofun⟩

/-- Whatever becomes of a half, it is logged, and the cycle goes on. -/
theorem takes_logged {failure crash : String} {half : Action Unit} {r : Except Crash Unit}
    (h : (logged failure crash half).Takes t r) : r = .ok () ∧ ∃ u o, deeds t = deeds u ∧ half.Takes u o := by
  unfold logged at h
  rcases Dialogue.takes_monad_bind.1 h with ⟨c, hc, _⟩ | ⟨outcome, u, v, rfl, hu, hv⟩
  · obtain ⟨_, _, ho⟩ := Dialogue.takes_guarded.1 hc
    cases ho
  obtain ⟨o, ho, heq⟩ := Dialogue.takes_guarded.1 hu
  cases heq
  have hlog : deeds v = [] ∧ r = .ok () := by
    match outcome, hv with
    | .ok (.ok ()), hv =>
      obtain ⟨rfl, hr⟩ := hv
      exact ⟨rfl, hr⟩
    | .ok (.error e), hv => exact takes_log hv
    | .error c, hv => exact takes_log hv
  refine ⟨hlog.2, u, outcome, ?_, ho⟩
  rw [deeds_append, hlog.1, List.append_nil]

/-- The course of a command: a cycle of a sweep and a batch, either of which may be quiet. -/
inductive CommandCourse : List (Event interface) → Prop
  | quiet {es : List (Event interface)} (quiet : ∀ e ∈ es, Quiet e) : CommandCourse es
  | cycle {settings : Settings} {es fs : List (Event interface)} (sweep : SweepCourse es)
    (batch : BatchCourse settings fs) : CommandCourse (es ++ fs)

/-- A cycle goes through both of its halves, however they end. -/
theorem exists_halves {r : Except Crash Unit} (h : (pollCycle settings).Takes t r) :
    ∃ u v o o', deeds t = deeds u ++ deeds v ∧ (confirmAnyUnconfirmed settings).Takes u o ∧
      (sendMsgBatch settings).Takes v o' := by
  unfold pollCycle at h
  rcases Dialogue.takes_monad_bind.1 h with ⟨c, hc, _⟩ | ⟨_, u, v, rfl, hu, hv⟩
  · cases (takes_logged hc).1
  · obtain ⟨_, w, o, hfirst, hw⟩ := takes_logged hu
    obtain ⟨_, x, o', hsecond, hx⟩ := takes_logged hv
    exact ⟨w, x, o, o', by rw [deeds_append, hfirst, hsecond], hw, hx⟩

theorem takes_pollCycle {r : Except Crash Unit} (h : (pollCycle settings).Takes t r) :
    CommandCourse (deeds t) := by
  obtain ⟨u, v, o, o', hdeeds, hu, hv⟩ := exists_halves h
  rw [hdeeds]
  exact .cycle (takes_confirmAnyUnconfirmed hu) (takes_sendMsgBatch hv)

theorem takes_outcome {α : Type} {half : Action α} {r : Except Crash Unit}
    (h : (half.outcome.bind fun _ => .done ()).Takes t r) : ∃ o, half.Takes t o := by
  rcases Dialogue.takes_bind.1 h with ⟨c, hc, _⟩ | ⟨o, u, v, rfl, hu, rfl, _⟩
  · exact ⟨.error c, hc⟩
  · exact ⟨.ok o, by rwa [List.append_nil]⟩

theorem takes_command {command : Command} {r : Except Crash Unit} (h : command.dialogue.Takes t r) :
    CommandCourse (deeds t) := by
  cases command with
  | enqueue contractId envelope =>
    obtain ⟨o, ho⟩ := takes_outcome h
    exact .quiet (takes_enqueue ho)
  | sendMsgBatch settings =>
    obtain ⟨o, ho⟩ := takes_outcome h
    exact .cycle (.quiet (List.forall_mem_nil _)) (takes_sendMsgBatch ho)
  | confirmAnyUnconfirmed settings =>
    obtain ⟨o, ho⟩ := takes_outcome h
    have hcycle := CommandCourse.cycle (takes_confirmAnyUnconfirmed ho)
      (BatchCourse.quiet (List.forall_mem_nil _) : BatchCourse settings [])
    rwa [List.append_nil] at hcycle
  | pollCycle settings => exact takes_pollCycle h

/-! ## The halves of a cycle -/

def sweepHalf (settings : Settings) : Run Unit :=
  logged "Error confirming unconfirmed msgs: " "Confirmation sweep panicked: " (confirmAnyUnconfirmed settings)

def batchHalf (settings : Settings) : Run Unit :=
  logged "Error sending msg batch: " "Msg batch cycle panicked: " (sendMsgBatch settings)

theorem pollCycle_eq (settings : Settings) :
    pollCycle settings = (sweepHalf settings).bind fun _ => batchHalf settings := rfl

section
variable {E : Type} (others : Collaborators E) (chainId : String) (env : E) (store : Store) (settings : Settings)

/-- The world between the halves of a cycle. -/
def midway : World E :=
  ((sweepHalf settings).run (World.pass others) (World.answer chainId others) ⟨env, store, []⟩).2

/-- What happens in the second half of a cycle. -/
def batchPhase : List (Event interface) :=
  events ((World.session chainId others env store [.pollCycle settings]).history.drop
    (midway others chainId env store settings).history.length)

/-- The second half begins where the first one has ended, however it has. -/
theorem run_pollCycle :
    (pollCycle settings).run (World.pass others) (World.answer chainId others) ⟨env, store, []⟩ =
      (batchHalf settings).run (World.pass others) (World.answer chainId others)
        (midway others chainId env store settings) := by
  obtain ⟨ms, _, htakes, _⟩ := exists_takes_of_run chainId others (sweepHalf settings) ⟨env, store, []⟩
  rw [pollCycle_eq]
  exact Dialogue.run_bind_of_ok (takes_logged htakes).1 fun _ => batchHalf settings

theorem lawful_midway (hs : store.Lawful) : (midway others chainId env store settings).store.Lawful := by
  obtain ⟨ms, _, _, hrecorded, _⟩ := exists_takes_of_run chainId others (sweepHalf settings) ⟨env, store, []⟩
  exact (evolves_of_passes hs hrecorded.passes).lawful

/-- A cycle comes to its end, and its second half takes a course of its own. -/
theorem course_of_batchPhase :
    ((pollCycle settings).run (World.pass others) (World.answer chainId others) ⟨env, store, []⟩).1 = .ok () ∧
      (∃ r, (batchHalf settings).Takes (batchPhase others chainId env store settings) r) ∧
      Passes chainId (midway others chainId env store settings).store (batchPhase others chainId env store settings)
        (World.session chainId others env store [.pollCycle settings]).store := by
  obtain ⟨ms, hhistory, htakes, hrecorded, _⟩ :=
    exists_takes_of_run chainId others (batchHalf settings) (midway others chainId env store settings)
  rw [← run_pollCycle] at hhistory htakes hrecorded
  have hphase : batchPhase others chainId env store settings = events ms := by
    rw [batchPhase]
    refine congrArg events ((congrArg (List.drop _) hhistory).trans ?_)
    exact List.drop_left
  rw [hphase]
  exact ⟨(takes_logged htakes).1, ⟨_, htakes⟩, hrecorded.passes⟩

end

end ReportRelay.Dispatch
