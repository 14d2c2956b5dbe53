import ReportRelay.Proofs.Dispatch.CommandCourse
import ReportRelay.Proofs.Dispatch.CommonFate
import ReportRelay.Proofs.Dispatch.Selection
import ReportRelay.Proofs.Queue.Clearing

/-!
# What a sweep resolves

When the client stays calm, a sweep looks up every transaction of the rows that it loads, and afterwards none of these
rows is broadcasted any more. It touches no other rows.
-/

namespace ReportRelay.Dispatch

variable {chainId : String} {s s' : Store} {settings : Settings} {t u w es : List (Event interface)}
  {rows : List Row} {row : Row} {sender sender' : String} {txs : List (String × Behalf)} {tx other : String × Behalf}
  {id : MsgId}

/-! ## Transactions -/

theorem sender_of_mem_transactionsOf (h : tx ∈ transactionsOf rows sender) : tx.2.sender = sender := by
  obtain ⟨txHash, _, rfl⟩ := List.mem_map.1 h
  rfl

theorem mem_ids_of_transactionsOf (h : tx ∈ transactionsOf rows sender) :
    id ∈ tx.2.ids ↔ ∃ row ∈ rows, row.id = id ∧ row.txHash = some tx.1 ∧ storedSender row = sender := by
  obtain ⟨txHash, _, rfl⟩ := List.mem_map.1 h
  dsimp only
  rw [List.mem_map]
  constructor
  · rintro ⟨row, hrow, rfl⟩
    obtain ⟨hown, hhash⟩ := List.mem_filter.1 hrow
    obtain ⟨hmem, hsender⟩ := List.mem_filter.1 hown
    exact ⟨row, hmem, rfl, of_decide_eq_true hhash, (of_decide_eq_true hsender).2⟩
  · rintro ⟨row, hrow, rfl, hhash, hsender⟩
    have hsome : row.txHash.isSome = true := by rw [hhash, Option.isSome_some]
    refine ⟨row, List.mem_filter.2 ⟨List.mem_filter.2 ⟨hrow, ?_⟩, decide_eq_true hhash⟩, rfl⟩
    exact decide_eq_true ⟨hsome, hsender⟩

theorem exists_transaction {txHash : String} (hrow : row ∈ rows) (hhash : row.txHash = some txHash) :
    ∃ tx ∈ transactionsOf rows (storedSender row), tx.1 = txHash ∧ row.id ∈ tx.2.ids := by
  have hsome : row.txHash.isSome = true := by rw [hhash, Option.isSome_some]
  have hown : row ∈ rows.filter fun other => other.txHash.isSome ∧ storedSender other = storedSender row :=
    List.mem_filter.2 ⟨hrow, decide_eq_true ⟨hsome, rfl⟩⟩
  refine ⟨_, List.mem_map.2 ⟨txHash, List.mem_eraseDups.2 (List.mem_filterMap.2 ⟨row, hown, hhash⟩), rfl⟩, rfl, ?_⟩
  exact List.mem_map.2 ⟨row, List.mem_filter.2 ⟨hown, decide_eq_true hhash⟩, rfl⟩

theorem nodup_transactionsOf : (transactionsOf rows sender).Nodup := by
  refine (nodup_eraseDups _).map fun a b heq => ?_
  exact congrArg Prod.fst heq

/-- Different transactions have no message in common. -/
theorem eq_of_mem_ids (hrows : (rows.map Row.id).Nodup) (htx : tx ∈ transactionsOf rows sender)
    (hother : other ∈ transactionsOf rows sender') (hid : id ∈ tx.2.ids) (hid' : id ∈ other.2.ids) :
    other = tx := by
  obtain ⟨a, ha, rfl, hhash, hsender⟩ := (mem_ids_of_transactionsOf htx).1 hid
  obtain ⟨b, hb, hba, hhash', hsender'⟩ := (mem_ids_of_transactionsOf hother).1 hid'
  obtain rfl := List.inj_on_of_nodup_map hrows hb ha hba
  obtain rfl := hsender'.symm.trans hsender
  obtain ⟨txHash, _, rfl⟩ := List.mem_map.1 htx
  obtain ⟨txHash', _, rfl⟩ := List.mem_map.1 hother
  cases hhash'.symm.trans hhash
  rfl

theorem nodup_ids_of_mem_transactionsOf (hrows : (rows.map Row.id).Nodup) (htx : tx ∈ transactionsOf rows sender) :
    tx.2.ids.Nodup := by
  obtain ⟨txHash, _, rfl⟩ := List.mem_map.1 htx
  exact hrows.sublist ((List.filter_sublist.trans List.filter_sublist).map Row.id)

/-! ## Courses -/

/-- The event is one of a confirmation of the transaction. -/
def ConfirmEvent (settings : Settings) (tx : String × Behalf) (e : Event interface) : Prop :=
  ∃ es r, ConfirmCourse settings tx.2 tx.1 es r ∧ e ∈ es

theorem ConfirmEvent.senderEvent {e : Event interface} (h : ConfirmEvent settings tx e) : SenderEvent tx.2 e := by
  obtain ⟨es, r, hcourse, he⟩ := h
  exact hcourse.event e he

/-- The confirmation of one transaction moves no message of another one. -/
theorem ConfirmEvent.names {e : Event interface} (h : ConfirmEvent settings other e)
    (hrows : (rows.map Row.id).Nodup) (htx : tx ∈ transactionsOf rows sender)
    (hother : other ∈ transactionsOf rows sender') (hne : other ≠ tx) : Names (· ∉ tx.2.ids) e :=
  h.senderEvent.names.imp fun _ hid' hid => hne (eq_of_mem_ids hrows htx hother hid hid')

theorem ConfirmsInOrder.event_of (h : ConfirmsInOrder settings txs es) :
    ∀ e ∈ es, ∃ tx ∈ txs, ConfirmEvent settings tx e := by
  induction h with
  | done => exact List.forall_mem_nil _
  | next first _ ih =>
    refine List.forall_mem_append.2 ⟨fun e he => ⟨_, List.mem_cons_self, _, _, first, he⟩, fun e he => ?_⟩
    obtain ⟨tx, htx, hevent⟩ := ih e he
    exact ⟨tx, List.mem_cons_of_mem _ htx, hevent⟩
  | crashed first => exact fun e he => ⟨_, List.mem_cons_self, _, _, first, he⟩

/-- When the client stays calm, every transaction of a sender is looked up, among the others. -/
theorem ConfirmsInOrder.exists_course (h : ConfirmsInOrder settings txs es) (hcalm : ∀ e ∈ es, CalmEvent e)
    (hnodup : txs.Nodup) (htx : tx ∈ txs) : ∃ u v a, Interleave u v es ∧
      ConfirmCourse settings tx.2 tx.1 u (.ok a) ∧
        ∀ e ∈ v, ∃ other ∈ txs, other ≠ tx ∧ ConfirmEvent settings other e := by
  induction h with
  | done => cases htx
  | @next txHash behalf rest es fs a first others ih =>
    obtain ⟨hnot, hrest⟩ := List.nodup_cons.1 hnodup
    rcases List.mem_cons.1 htx with rfl | htx
    · refine ⟨es, fs, a, .append es fs, first, fun e he => ?_⟩
      obtain ⟨other, hother, hevent⟩ := others.event_of e he
      exact ⟨other, List.mem_cons_of_mem _ hother, fun heq => hnot (heq ▸ hother), hevent⟩
    · obtain ⟨u, v, a, hinterleave, hcourse, hv⟩ := ih (fun e he => hcalm e (List.mem_append_right _ he)) hrest htx
      refine ⟨u, es ++ v, a, hinterleave.append_right es, hcourse, List.forall_mem_append.2 ⟨fun e he => ?_, ?_⟩⟩
      · exact ⟨_, List.mem_cons_self, fun heq => hnot (heq ▸ htx), _, _, first, he⟩
      · intro e he
        obtain ⟨other, hother, hne, hevent⟩ := hv e he
        exact ⟨other, List.mem_cons_of_mem _ hother, hne, hevent⟩
  | crashed first =>
    obtain ⟨e, he, hnot⟩ := first.exists_crash
    exact absurd (hcalm e he) hnot

theorem exists_crash_of_confirmInOrder {c : Crash} (h : (confirmInOrder settings txs).Takes t (.error c)) :
    ∃ e ∈ t, ¬CalmEvent e := by
  induction txs generalizing t with
  | nil => cases h.2
  | cons tx txs ih =>
    obtain ⟨txHash, behalf⟩ := tx
    rcases Dialogue.takes_monad_bind.1 h with ⟨c, hc, _⟩ | ⟨outcome, u, v, rfl, hu, hv⟩
    · obtain ⟨e, he, hnot⟩ := (takes_confirmTx hc).exists_crash
      exact ⟨e, List.mem_of_mem_filter he, hnot⟩
    suffices hrest : ∃ e ∈ v, ¬CalmEvent e by
      obtain ⟨e, he, hnot⟩ := hrest
      exact ⟨e, List.mem_append_right u he, hnot⟩
    cases outcome with
    | ok => exact ih hv
    | error e =>
      rcases Dialogue.takes_monad_bind.1 hv with ⟨_, hlog, _⟩ | ⟨_, w, x, rfl, _, hx⟩
      · cases (takes_log hlog).2
      · obtain ⟨e, he, hnot⟩ := ih hx
        exact ⟨e, List.mem_append_right w he, hnot⟩

/-- The senders of the transactions that the rows carry. -/
def carriers (rows : List Row) : List String :=
  distinctSorted ((rows.filter fun row => row.txHash.isSome).map storedSender)

theorem mem_carriers (hrow : row ∈ rows) (hhash : row.txHash.isSome = true) : storedSender row ∈ carriers rows :=
  mem_distinctSorted.2 (List.mem_map_of_mem (List.mem_filter.2 ⟨hrow, hhash⟩))

/-- A calm sweep loads rows and looks up the transactions of all their senders, side by side. -/
inductive Sweeps (settings : Settings) : List (Event interface) → Prop
  | unloaded {e : Error} : Sweeps settings [loading .broadcasted settings.maxMsgsPerBatch (.error e)]
  | swept {rows : List Row} {w : List (Event interface)} {us : List (List (Event interface))}
    (merged : Merge us w) (courses : List.Forall₂
      (fun sender u => ConfirmsInOrder settings (transactionsOf rows sender) u) (carriers rows) us) :
    Sweeps settings (loading .broadcasted settings.maxMsgsPerBatch (.ok rows) :: w)

theorem takes_confirmAnyUnconfirmed_calm {r : Except Crash (Except Error Unit)}
    (h : (confirmAnyUnconfirmed settings).Takes t r) (hcalm : ∀ e ∈ t, CalmEvent e) :
    Sweeps settings (deeds t) := by
  unfold confirmAnyUnconfirmed at h
  rcases Attempt.takes_bind.1 h with ⟨failure, hf, _⟩ | ⟨rows, u, v, rfl, hu, hv⟩
  · obtain ⟨a, hdeeds, ha⟩ := takes_load hf
    rw [hdeeds]
    cases failure <;> cases ha
    exact .unloaded
  obtain ⟨a, hdeeds, ha⟩ := takes_load hu
  cases ha
  obtain ⟨o, hall, _⟩ := Attempt.takes_ofDialogue.1 hv
  obtain ⟨us, hmerge, heach, hcrash⟩ := Dialogue.exists_merge_of_takes_all nonempty_answer hall
  obtain ⟨⟩ : o = .ok () := by
    cases o with
    | ok => rfl
    | error c =>
      obtain ⟨p, hp, x, hx, htakes⟩ := hcrash c rfl
      obtain ⟨sender, _, rfl⟩ := List.mem_map.1 hp
      obtain ⟨e, he, hnot⟩ := exists_crash_of_confirmInOrder htakes
      exact absurd (hcalm e (List.mem_append_right u ((hmerge.sublist hx).subset he))) hnot
  rw [deeds_append, hdeeds]
  refine .swept (hmerge.filter isDeed) ?_
  refine List.forall₂_map_right_iff.2 ((List.forall₂_map_left_iff.1 heach).imp fun sender x hx => ?_)
  exact takes_confirmInOrder (hx.2 rfl)

/-! ## What a sweep leaves -/

section
variable {us : List (List (Event interface))} (hmerge : Merge us w)
  (hcourses : List.Forall₂ (fun sender u => ConfirmsInOrder settings (transactionsOf rows sender) u)
    (carriers rows) us)
include hmerge hcourses

theorem exists_transaction_of_event : ∀ e ∈ w,
    ∃ sender, ∃ tx ∈ transactionsOf rows sender, ConfirmEvent settings tx e := by
  intro e he
  obtain ⟨u, hu, heu⟩ := hmerge.mem_iff.1 he
  obtain ⟨sender, _, _, _, _, _, _, hcourse, _⟩ := exists_split_of_mem hcourses hu
  obtain ⟨tx, htx, hevent⟩ := hcourse.event_of e heu
  exact ⟨sender, tx, htx, hevent⟩

/-- Among all confirmations, that of one transaction: the others are of different ones. -/
theorem exists_confirmation (hcalm : ∀ e ∈ w, CalmEvent e) (hsender : sender ∈ carriers rows)
    (htx : tx ∈ transactionsOf rows sender) : ∃ u v a, Interleave u v w ∧
      ConfirmCourse settings tx.2 tx.1 u (.ok a) ∧
        ∀ e ∈ v, ∃ sender', ∃ other ∈ transactionsOf rows sender', other ≠ tx ∧ ConfirmEvent settings other e := by
  obtain ⟨u₀, us₁, us₂, before, after, rfl, hcarriers, hcourse, hbefore, hafter⟩ :=
    exists_split_of_mem hcourses.flip hsender
  obtain ⟨v₀, hv₀, hinterleave⟩ := hmerge.exists_interleave
  obtain ⟨u, v, a, hu, hconfirms, hv⟩ := hcourse.exists_course
    (fun e he => hcalm e (hinterleave.sublist_left.subset he)) nodup_transactionsOf htx
  obtain ⟨y, hy, huy⟩ := hinterleave.exists_of_left hu
  refine ⟨u, y, a, huy, hconfirms, fun e he => ?_⟩
  rcases List.mem_append.1 (hy.perm.mem_iff.1 he) with he | he
  · exact ⟨sender, hv e he⟩
  · obtain ⟨x, hx, hex⟩ := hv₀.mem_iff.1 he
    obtain ⟨sender', _, _, _, _, hsenders, _, hcourse', _⟩ :=
      exists_split_of_mem (List.rel_append hbefore.flip hafter.flip) hx
    obtain ⟨other, hother, hevent⟩ := hcourse'.event_of e hex
    refine ⟨sender', other, hother, ?_, hevent⟩
    rintro rfl
    obtain rfl := (sender_of_mem_transactionsOf hother).symm.trans (sender_of_mem_transactionsOf htx)
    have hnodup : (carriers rows).Nodup := nodup_distinctSorted _
    rw [hcarriers] at hnodup
    refine (List.nodup_cons.1 (List.nodup_middle.1 hnodup)).1 ?_
    rw [show before ++ after = _ from hsenders]
    exact List.mem_append_right _ List.mem_cons_self

end

/-- The confirmation of a loaded row's transaction, among everything else that a sweep does, decides what becomes of all
its messages that were loaded. -/
theorem Sweeps.exists_confirmation (h : Sweeps settings es) (hcalm : ∀ e ∈ es, CalmEvent e) (hs : s.Lawful)
    (hpass : Passes chainId s es s') (hrow : row ∈ s.oldest chainId .broadcasted settings.maxMsgsPerBatch) :
    ∃ tx ∈ transactionsOf (s.oldest chainId .broadcasted settings.maxMsgsPerBatch) (storedSender row),
      row.txHash = some tx.1 ∧ row.id ∈ tx.2.ids ∧ ∃ u v a, Interleave u v es ∧
        ConfirmCourse settings tx.2 tx.1 u (.ok a) ∧
        (∀ e ∈ v, (∃ a, e = loading .broadcasted settings.maxMsgsPerBatch a) ∨
          ∃ sender', ∃ other ∈ transactionsOf (s.oldest chainId .broadcasted settings.maxMsgsPerBatch) sender',
            other ≠ tx ∧ ConfirmEvent settings other e) ∧
        (s'.AllWith chainId tx.2.ids .confirmed (some tx.1) ∧ (∃ e ∈ u, confirms e = true) ∨
          s'.AllWith chainId tx.2.ids .errored none ∧ ∀ e ∈ u, confirms e = false) := by
  have hoffered := Store.load_eq_of_mem hs hrow
  have hlater := (evolves_of_passes hs hpass).lawful
  cases h with
  | unloaded =>
    obtain ⟨hload, _⟩ := loaded_of_passes hpass
    rw [hoffered] at hload
    cases hload
  | @swept rows w us merged courses =>
    obtain ⟨hload, hlookUps⟩ := loaded_of_passes hpass
    rw [hoffered] at hload
    cases hload
    obtain ⟨hmem, hchain, hstate⟩ := Store.mem_of_load hoffered hrow
    obtain ⟨txHash, hhash⟩ : ∃ txHash, row.txHash = some txHash := by
      have hchecked := hs.checked row hmem
      rw [Row.Checked, hstate] at hchecked
      exact Option.isSome_iff_exists.1 hchecked.symm
    obtain ⟨tx, htx, rfl, hid⟩ := exists_transaction hrow hhash
    have hrows := Store.nodup_ids_of_load hs hoffered
    obtain ⟨u, v, a, hinterleave, hcourse, hothers⟩ := Dispatch.exists_confirmation merged courses
      (List.forall_mem_cons.1 hcalm).2 (mem_carriers hrow (by rw [hhash, Option.isSome_some])) htx
    refine ⟨tx, htx, hhash, hid, u, _ :: v, a, hinterleave.right, hcourse,
      List.forall_mem_cons.2 ⟨.inl ⟨_, rfl⟩, fun e he => .inr (hothers e he)⟩, ?_⟩
    have houtside : ∀ e ∈ v, Names (· ∉ tx.2.ids) e := by
      intro e he
      obtain ⟨_, other, hother, hne, hevent⟩ := hothers e he
      exact hevent.names hrows htx hother hne
    -- on the rows of the transaction alone, only its own lookups have done anything
    have halone := passes_restrict hinterleave (fun e he => (hcourse.event e he).names) houtside hlookUps
    have hall : (s.restrict tx.2.ids).AllWith chainId tx.2.ids .broadcasted (some tx.1) := by
      intro id hid
      obtain ⟨other, hother, rfl, hotherHash, _⟩ := (mem_ids_of_transactionsOf htx).1 hid
      obtain ⟨hotherMem, hotherChain, hotherState⟩ := Store.mem_of_load hoffered hother
      exact ⟨other, Store.mem_restrict.2 ⟨hotherMem, hid⟩, hotherChain, rfl, hotherState, hotherHash⟩
    have hnodup := nodup_ids_of_mem_transactionsOf hrows htx
    rcases hcourse.settles (fun e he => hcalm e (.tail _ (hinterleave.sublist_left.subset he))) hs.restrict hnodup hall
      halone with ⟨hconfirmed, hfound, _⟩ | ⟨herrored, hnone⟩
    · exact .inl ⟨hconfirmed.of_restrict, hfound⟩
    · exact .inr ⟨(herrored.allWith hlater.restrict rfl).of_restrict, hnone⟩

/-- The transaction of a row that a sweep has loaded is confirmed or errored, with all its messages that were loaded. -/
theorem Sweeps.settles (h : Sweeps settings es) (hcalm : ∀ e ∈ es, CalmEvent e) (hs : s.Lawful)
    (hpass : Passes chainId s es s') (hrow : row ∈ s.oldest chainId .broadcasted settings.maxMsgsPerBatch) :
    ∃ tx ∈ transactionsOf (s.oldest chainId .broadcasted settings.maxMsgsPerBatch) (storedSender row),
      row.txHash = some tx.1 ∧ row.id ∈ tx.2.ids ∧
        (s'.AllWith chainId tx.2.ids .confirmed (some tx.1) ∨ s'.AllWith chainId tx.2.ids .errored none) := by
  obtain ⟨tx, htx, hhash, hid, _, _, _, _, _, _, hend⟩ := h.exists_confirmation hcalm hs hpass hrow
  exact ⟨tx, htx, hhash, hid, hend.imp And.left And.left⟩

/-- No row that a sweep has loaded is broadcasted any more. -/
theorem Sweeps.resolved (h : Sweeps settings es) (hcalm : ∀ e ∈ es, CalmEvent e) (hs : s.Lawful)
    (hpass : Passes chainId s es s') (hrow : row ∈ s.oldest chainId .broadcasted settings.maxMsgsPerBatch) :
    s'.Resolved row.id := by
  obtain ⟨tx, _, _, hid, hconfirmed | herrored⟩ := h.settles hcalm hs hpass hrow
  · exact hconfirmed.allIn.resolved rfl row.id hid
  · exact herrored.allIn.resolved rfl row.id hid

/-- A sweep moves no rows but those that it has loaded. -/
theorem Sweeps.spares (h : Sweeps settings es) (hs : s.Lawful) (hpass : Passes chainId s es s')
    (hrow : row ∈ s.rows) (hnot : row ∉ s.oldest chainId .broadcasted settings.maxMsgsPerBatch) :
    ∀ e ∈ es, Spares row.id e := by
  cases h with
  | unloaded => exact List.forall_mem_singleton.2 nofun
  | @swept rows w us merged courses =>
    obtain ⟨hload, _⟩ := loaded_of_passes hpass
    refine List.forall_mem_cons.2 ⟨nofun, fun e he => ?_⟩
    obtain ⟨sender, tx, htx, hevent⟩ := exists_transaction_of_event merged courses e he
    refine hevent.senderEvent.names.spares fun hid => ?_
    obtain ⟨other, hother, hid, _⟩ := (mem_ids_of_transactionsOf htx).1 hid
    obtain rfl := hs.eq_of_id_eq (Store.mem_of_load hload hother).1 hrow hid
    rw [(Store.load_ok hload).2] at hother
    exact hnot hother

theorem Sweeps.keeps (h : Sweeps settings es) (hs : s.Lawful) (hpass : Passes chainId s es s') (hrow : row ∈ s.rows)
    (hnot : row ∉ s.oldest chainId .broadcasted settings.maxMsgsPerBatch) : row ∈ s'.rows :=
  mem_of_spares hs hpass (h.spares hs hpass hrow hnot) hrow

end ReportRelay.Dispatch
