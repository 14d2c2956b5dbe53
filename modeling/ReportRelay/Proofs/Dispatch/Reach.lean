import ReportRelay.Proofs.Dispatch.BatchCourse
import ReportRelay.Proofs.Dispatch.Readiness

/-!
# The reach of a batch

A batch moves only rows that it has loaded: expired and unreadable ones, and of every sender those that are
started and the oldest new one. All other rows stay exactly as they are, wherever the batch is given up and
whoever crashes.
-/

namespace ReportRelay.Dispatch

variable {chainId : String} {s s' : Store} {settings : Settings} {i : Intake} {m : Makeup}
  {t es : List (Event interface)} {id : MsgId} {row : Row}

/-- The messages that a batch may move. -/
def Intake.reach (settings : Settings) (i : Intake) : List MsgId :=
  i.expired settings ++ (i.undecodable settings ++ (bySender (i.pending settings)).flatMap SenderMsgs.ids)

theorem Makeup.Parted.mem_reach (h : m.Parted settings) {batch : SenderBatch} (hbatch : batch ∈ m.batches)
    (hid : id ∈ batch.msgs.ids) : id ∈ m.reach settings := by
  apply List.mem_append_right
  apply List.mem_append_right
  exact List.mem_flatMap.2 ⟨batch.msgs, h.mem_batches hbatch, hid⟩

theorem Makeup.Parted.mem_reach_of_unsignable (h : m.Parted settings) (hid : id ∈ m.unsignableIds) :
    id ∈ m.reach settings := by
  obtain ⟨g, hg, hid⟩ := List.mem_flatMap.1 hid
  apply List.mem_append_right
  apply List.mem_append_right
  exact List.mem_flatMap.2 ⟨g, h.mem_unsignable hg, hid⟩

/-- The course takes in messages, and what it moves after that is within reach. -/
def Reaches (settings : Settings) (i : Intake) (es : List (Event interface)) : Prop :=
  ∃ fs, es = takenIn settings i ++ fs ∧ ∀ e ∈ fs, Names (· ∈ i.reach settings) e

theorem Reaches.append {fs : List (Event interface)} (h : Reaches settings i es)
    (hfs : ∀ e ∈ fs, Names (· ∈ i.reach settings) e) : Reaches settings i (es ++ fs) := by
  obtain ⟨gs, rfl, hgs⟩ := h
  exact ⟨gs ++ fs, List.append_assoc .., List.forall_mem_append.2 ⟨hgs, hfs⟩⟩

theorem names_moves {ids : List MsgId} {state : MsgState} {p : MsgId → Prop} (h : ∀ id ∈ ids, p id) :
    ∀ e ∈ moves ids state, Names p e :=
  forall_mem_moves h

theorem names_asked {asked : List (Event interface)} {p : MsgId → Prop}
    (h : ∀ e ∈ asked, ∃ sender reply, e = asking sender reply) : ∀ e ∈ asked, Names p e := by
  intro e he
  obtain ⟨_, _, rfl⟩ := h e he
  trivial

theorem names_expired : ∀ id ∈ i.expired settings, id ∈ i.reach settings :=
  fun _ => List.mem_append_left _

theorem names_undecodable : ∀ id ∈ i.undecodable settings, id ∈ i.reach settings :=
  fun _ hid => List.mem_append_right _ (List.mem_append_left _ hid)

theorem Opens.reaches (h : Opens settings m es) : Reaches settings m.toIntake es := by
  obtain ⟨asks⟩ := h
  have hparted : m.Parted settings := asks.interleave
  refine ⟨moves (m.expired settings) .errored ++ (moves (m.undecodable settings) .errored ++
    (_ ++ moves m.unsignableIds .errored)), rfl, ?_⟩
  simp only [List.forall_mem_append]
  exact ⟨names_moves names_expired, names_moves names_undecodable, names_asked asks.eq_asking,
    names_moves fun _ => hparted.mem_reach_of_unsignable⟩

theorem Opens.parted (h : Opens settings m es) : m.Parted settings := by
  obtain ⟨asks⟩ := h
  exact asks.interleave

theorem Makeup.Parted.names_starting (h : m.Parted settings) :
    ∀ id ∈ starting m.batches, id ∈ m.reach settings := by
  intro id hid
  obtain ⟨batch, hbatch, p, hp, rfl⟩ := Makeup.mem_starting.1 hid
  refine h.mem_reach hbatch (List.mem_map.2 ⟨p, List.mem_append_right _ ?_, rfl⟩)
  exact Option.mem_toList.2 hp

/-- A preparation moves nothing, or only what is in reach of its intake. -/
theorem Prepares.reaches {r : Except Crash (Except Error (Option Plan))} (h : Prepares settings es r) :
    (∀ e ∈ es, move? e = none) ∨ ∃ i, Reaches settings i es := by
  cases h with
  | unloaded => exact .inl (List.forall_mem_singleton.2 rfl)
  | halfLoaded | idle => exact .inl (List.forall_mem_cons.2 ⟨rfl, List.forall_mem_singleton.2 rfl⟩)
  | @untimely i => exact .inr ⟨i, [], (List.append_nil _).symm, List.forall_mem_nil _⟩
  | @notExpired i => exact .inr ⟨i, _, rfl, List.forall_mem_singleton.2 names_expired⟩
  | @notDropped i =>
    refine .inr ⟨i, _, rfl, List.forall_mem_append.2 ⟨names_moves names_expired, ?_⟩⟩
    exact List.forall_mem_singleton.2 names_undecodable
  | @notAsked i _ _ asked_eq =>
    refine .inr ⟨i, _, rfl, ?_⟩
    simp only [List.forall_mem_append]
    exact ⟨names_moves names_expired, names_moves names_undecodable, names_asked asked_eq⟩
  | @notMarked m _ _ asks =>
    have hparted : m.Parted settings := asks.interleave
    refine .inr ⟨m.toIntake, _, rfl, ?_⟩
    simp only [List.forall_mem_append]
    exact ⟨names_moves names_expired, names_moves names_undecodable, names_asked asks.eq_asking,
      List.forall_mem_singleton.2 fun _ => hparted.mem_reach_of_unsignable⟩
  | noBatches opens => exact .inr ⟨_, opens.reaches⟩
  | notStarted opens =>
    exact .inr ⟨_, opens.reaches.append (List.forall_mem_singleton.2 opens.parted.names_starting)⟩
  | unpriced opens | planned opens =>
    refine .inr ⟨_, opens.reaches.append (List.forall_mem_append.2 ⟨?_, List.forall_mem_singleton.2 trivial⟩)⟩
    exact names_moves opens.parted.names_starting

theorem Opens.reaches_of_senders (h : Opens settings m es) {toPrices : Reply Prices} {w : List (Event interface)}
    (hsenders : ∀ e ∈ w, ∃ batch ∈ m.batches, SenderEvent batch.behalf e) : Reaches settings m.toIntake
      (es ++ (moves (starting m.batches) .started ++ [pricing toPrices] ++ w)) := by
  refine h.reaches.append ?_
  simp only [List.forall_mem_append]
  refine ⟨⟨names_moves h.parted.names_starting, List.forall_mem_singleton.2 trivial⟩, fun e he => ?_⟩
  obtain ⟨batch, hbatch, hevent⟩ := hsenders e he
  exact hevent.names.imp fun _ => h.parted.mem_reach hbatch

theorem takes_sendMsgBatch_reaches {r : Except Crash (Except Error Unit)}
    (h : (sendMsgBatch settings).Takes t r) :
    (∀ e ∈ deeds t, move? e = none) ∨ ∃ i, Reaches settings i (deeds t) := by
  rcases cases_of_sendMsgBatch h with ⟨o, hprepare, _⟩ | ⟨plan, u, v, o, rfl, hu, hall⟩
  · exact (takes_prepare hprepare).reaches
  · obtain ⟨m, opening, toPrices, prices, estimated, hopens, _, _, hdeeds, rfl⟩ :=
      (takes_prepare hu).exists_makeup
    obtain ⟨us, hmerge, hbegun, _⟩ := exists_courses_of_sends hall
    rw [deeds_append, hdeeds, List.append_assoc]
    exact .inr ⟨m.toIntake, hopens.reaches_of_senders (exists_sender hmerge hbegun)⟩

/-! ## What is out of reach -/

theorem Drawn.exists_loaded (h : Drawn chainId settings i s) (hrow : row ∈ s.rows)
    (hid : row.id ∈ i.reach settings) : row ∈ i.loaded := by
  have hloaded {other : Row} (hother : other ∈ i.loaded) (heq : other.id = row.id) : row ∈ i.loaded := by
    rwa [h.lawful.eq_of_id_eq hrow (h.mem_loaded hother).1 heq.symm]
  rcases List.mem_append.1 hid with hexpired | hid
  · obtain ⟨other, hother, hfind⟩ := Intake.mem_expired.1 hexpired
    exact hloaded hother (id_of_expired hfind)
  rcases List.mem_append.1 hid with hundecodable | hid
  · obtain ⟨other, hother, e, hfind⟩ := Intake.mem_undecodable.1 hundecodable
    exact hloaded hother (id_of_undecodable hfind)
  · obtain ⟨g, hg, hid⟩ := List.mem_flatMap.1 hid
    obtain ⟨p, hp, heq⟩ := List.mem_map.1 hid
    exact hloaded (Intake.row_of_pending (mem_msgs hg hp).1).1 heq

theorem Reaches.spares (h : Reaches settings i es) (hid : id ∉ i.reach settings) : ∀ e ∈ es, Spares id e := by
  obtain ⟨fs, rfl, hnames⟩ := h
  have htakenIn : ∀ e ∈ takenIn settings i, move? e = none := by
    simp only [takenIn, List.forall_mem_cons]
    exact ⟨rfl, rfl, rfl, List.forall_mem_nil _⟩
  refine List.forall_mem_append.2 ⟨fun e he ids state txHash hmove => ?_, fun e he => (hnames e he).spares hid⟩
  rw [htakenIn e he] at hmove
  cases hmove

theorem Reaches.mem_of_passes (h : Reaches settings i es) (hs : s.Lawful) (hpass : Passes chainId s es s')
    (hrow : row ∈ s.rows) (hid : row.id ∉ i.reach settings) : row ∈ s'.rows :=
  mem_of_spares hs hpass (h.spares hid) hrow

theorem Reaches.drawn (h : Reaches settings i es) (hs : s.Lawful) (hpass : Passes chainId s es s') :
    Drawn chainId settings i s := by
  obtain ⟨fs, rfl, _⟩ := h
  exact (drawn_of_takenIn hs hpass).1

end ReportRelay.Dispatch
