import ReportRelay.Proofs.Dispatch.BatchCourse

/-!
# Who is in a batch

Every loaded message is expired, unreadable or pending, and which of them is told by its row. Pending messages are
parted by their senders, so that no message is sent twice in one batch.
-/

namespace ReportRelay

/-- The sender of the message that a row holds, if it can be read. -/
def Row.sender? (row : Row) : Option String :=
  match Message.decode row.typeUrl row.raw with
  | .ok message => some message.sender
  | .error _ => none

theorem Row.sender?_eq_some {row : Row} {sender : String} : row.sender? = some sender ↔
    ∃ message, Message.decode row.typeUrl row.raw = .ok message ∧ message.sender = sender := by
  unfold sender?
  cases Message.decode row.typeUrl row.raw <;> simp

theorem Row.Evolves.sender? {row row' : Row} (h : row.Evolves row') : row'.sender? = row.sender? := by
  rw [Row.sender?, h.typeUrl, h.raw]
  rfl

namespace Dispatch

variable {settings : Settings} {i : Intake} {m : Makeup} {ps : List Pending} {g g' : SenderMsgs} {p q : Pending}

/-! ## Senders -/

theorem subset_eraseDups {names : List String} : ∀ name ∈ names.eraseDups, name ∈ names := by
  induction hlength : names.length using Nat.strongRecOn generalizing names with
  | ind n ih =>
    cases names with
    | nil => exact List.forall_mem_nil _
    | cons name names =>
      rw [List.eraseDups_cons]
      refine List.forall_mem_cons.2 ⟨List.mem_cons_self, fun other hother => ?_⟩
      have hshorter := List.length_filter_le (fun b => !b == name) names
      rw [List.length_cons] at hlength
      have hmem := ih _ (by omega) rfl other hother
      exact List.mem_cons_of_mem _ (List.mem_filter.1 hmem).1

theorem nodup_eraseDups (names : List String) : names.eraseDups.Nodup := by
  induction hlength : names.length using Nat.strongRecOn generalizing names with
  | ind n ih =>
    cases names with
    | nil => exact .nil
    | cons name names =>
      rw [List.eraseDups_cons]
      have hshorter := List.length_filter_le (fun b => !b == name) names
      rw [List.length_cons] at hlength
      refine List.nodup_cons.2 ⟨fun hmem => ?_, ih _ (by omega) _ rfl⟩
      have hne := (List.mem_filter.1 (subset_eraseDups name hmem)).2
      simp at hne

theorem mem_insertOnce {name other : String} {names : List String} :
    other ∈ insertOnce name names ↔ other = name ∨ other ∈ names := by
  induction names with
  | nil => simp [insertOnce]
  | cons first rest ih =>
    unfold insertOnce
    split_ifs with hbefore hafter
    · exact List.mem_cons
    · rw [List.mem_cons, ih, List.mem_cons, or_left_comm]
    · obtain rfl : name = first := String.le_antisymm (String.not_lt.1 hafter) (String.not_lt.1 hbefore)
      rw [List.mem_cons, or_self_left]

theorem mem_distinctSorted {name : String} {names : List String} : name ∈ distinctSorted names ↔ name ∈ names := by
  induction names with
  | nil => exact Iff.rfl
  | cons first rest ih => exact mem_insertOnce.trans ((or_congr_right ih).trans List.mem_cons.symm)

theorem ascending_insertOnce {name : String} {names : List String} (h : names.Pairwise (· < ·)) :
    (insertOnce name names).Pairwise (· < ·) := by
  induction names with
  | nil => exact List.pairwise_singleton _ _
  | cons first rest ih =>
    obtain ⟨hfirst, hrest⟩ := List.pairwise_cons.1 h
    unfold insertOnce
    split_ifs with hbefore hafter
    · refine List.pairwise_cons.2 ⟨List.forall_mem_cons.2 ⟨hbefore, fun other hother => ?_⟩, h⟩
      exact String.lt_trans hbefore (hfirst other hother)
    · refine List.pairwise_cons.2 ⟨fun other hother => ?_, ih hrest⟩
      rcases mem_insertOnce.1 hother with rfl | hother
      · exact hafter
      · exact hfirst other hother
    · exact h

theorem ascending_distinctSorted (names : List String) : (distinctSorted names).Pairwise (· < ·) := by
  induction names with
  | nil => exact .nil
  | cons first rest ih => exact ascending_insertOnce ih

theorem nodup_distinctSorted (names : List String) : (distinctSorted names).Nodup := by
  refine (ascending_distinctSorted names).imp ?_
  rintro name _ hlt rfl
  exact String.lt_irrefl name hlt

theorem nodup_senders : ((bySender ps).map SenderMsgs.sender).Nodup := by
  unfold bySender
  rw [List.map_map]
  exact (List.map_id (distinctSorted (ps.map Pending.sender))).symm ▸ nodup_distinctSorted _

theorem mem_bySender (h : g ∈ bySender ps) :
    g.started = (ps.filter fun p => p.sender = g.sender).filter Pending.isStarted ∧
      g.next = (ps.filter fun p => p.sender = g.sender).find? fun p => !p.isStarted := by
  obtain ⟨sender, _, rfl⟩ := List.mem_map.1 h
  exact ⟨rfl, rfl⟩

theorem mem_started (h : g ∈ bySender ps) :
    p ∈ g.started ↔ p ∈ ps ∧ p.sender = g.sender ∧ p.isStarted = true := by
  rw [(mem_bySender h).1, List.mem_filter, List.mem_filter, decide_eq_true_iff, and_assoc]

theorem mem_of_next (h : g ∈ bySender ps) (hp : g.next = some p) :
    p ∈ ps ∧ p.sender = g.sender ∧ p.isStarted = false := by
  rw [(mem_bySender h).2] at hp
  obtain ⟨hmem, hsender⟩ := List.mem_filter.1 (List.mem_of_find?_eq_some hp)
  exact ⟨hmem, of_decide_eq_true hsender, by simpa using List.find?_some hp⟩

theorem mem_msgs (h : g ∈ bySender ps) (hp : p ∈ g.msgs) : p ∈ ps ∧ p.sender = g.sender := by
  rcases List.mem_append.1 hp with hp | hp
  · obtain ⟨hmem, hsender, _⟩ := (mem_started h).1 hp
    exact ⟨hmem, hsender⟩
  · obtain ⟨hmem, hsender, _⟩ := mem_of_next h (Option.mem_toList.1 hp)
    exact ⟨hmem, hsender⟩

/-! ## What is found about a row -/

theorem find_of_pending {now : Int} {row : Row} (h : find settings now row = .pending p) :
    p.row = row ∧ Message.decode row.typeUrl row.raw = .ok p.message := by
  unfold find at h
  split_ifs at h
  split at h
  · next message hdecode =>
    cases h
    exact ⟨rfl, hdecode⟩
  · cases h

theorem id_of_expired {now : Int} {row : Row} {id : MsgId} (h : find settings now row = .expired id) :
    row.id = id := by
  unfold find at h
  split_ifs at h
  · cases h
    rfl
  · split at h <;> cases h

theorem id_of_undecodable {now : Int} {row : Row} {id : MsgId} {e : Error}
    (h : find settings now row = .undecodable id e) : row.id = id := by
  unfold find at h
  split_ifs at h
  split at h
  · cases h
  · cases h
    rfl

theorem late_of_expired {now : Int} {row : Row} {id : MsgId} (h : find settings now row = .expired id) :
    settings.msgTimeout < now - row.createdAt := by
  unfold find at h
  split_ifs at h with hlate
  · exact hlate
  · split at h <;> cases h

theorem sender?_of_undecodable {now : Int} {row : Row} {id : MsgId} {e : Error}
    (h : find settings now row = .undecodable id e) : row.sender? = none := by
  unfold find at h
  split_ifs at h
  split at h
  · cases h
  · next hdecode => rw [Row.sender?, hdecode]

theorem sender?_of_pending {now : Int} {row : Row} {p : Pending} (h : find settings now row = .pending p) :
    row.sender? = some p.sender :=
  Row.sender?_eq_some.2 ⟨p.message, (find_of_pending h).2, rfl⟩

theorem find_of_decode (settings : Settings) (now : Int) {row : Row} {message : Message}
    (h : Message.decode row.typeUrl row.raw = .ok message) :
    find settings now row = .expired row.id ∨ find settings now row = .pending ⟨row, message⟩ := by
  unfold find
  split_ifs
  · exact .inl rfl
  · rw [h]
    exact .inr rfl

/-- The message is one of the sender's, and it has not expired. -/
def isDue (settings : Settings) (now : Int) (sender : String) (row : Row) : Bool :=
  row.sender? = some sender ∧ ¬settings.msgTimeout < now - row.createdAt

theorem isDue_iff {now : Int} {sender : String} {row : Row} : isDue settings now sender row = true ↔
    ∃ p, find settings now row = .pending p ∧ p.row = row ∧ p.sender = sender := by
  rw [isDue, decide_eq_true_iff, Row.sender?_eq_some]
  constructor
  · rintro ⟨⟨message, hdecode, rfl⟩, htime⟩
    refine ⟨⟨row, message⟩, ?_, rfl, rfl⟩
    rw [find, if_neg htime, hdecode]
  · rintro ⟨p, hfind, rfl, rfl⟩
    refine ⟨⟨p.message, (find_of_pending hfind).2, rfl⟩, fun htime => ?_⟩
    rw [find, if_pos htime] at hfind
    cases hfind

namespace Intake

theorem mem_pending : p ∈ i.pending settings ↔
    ∃ row ∈ i.loaded, find settings i.now row = .pending p := by
  unfold pending findings
  rw [List.filterMap_map, List.mem_filterMap]
  refine exists_congr fun row => and_congr_right fun _ => ?_
  cases hfind : find settings i.now row <;> simp [hfind, Finding.pending?]

theorem row_of_pending (hp : p ∈ i.pending settings) : p.row ∈ i.loaded ∧
    find settings i.now p.row = .pending p ∧ Message.decode p.row.typeUrl p.row.raw = .ok p.message := by
  obtain ⟨row, hrow, hfind⟩ := mem_pending.1 hp
  obtain ⟨rfl, hdecode⟩ := find_of_pending hfind
  exact ⟨hrow, hfind, hdecode⟩

theorem exists_pending_iff {sender : String} {row : Row} :
    (∃ q ∈ i.pending settings, q.row = row ∧ q.sender = sender) ↔
      row ∈ i.loaded ∧ isDue settings i.now sender row = true := by
  rw [isDue_iff]
  constructor
  · rintro ⟨q, hq, rfl, hsender⟩
    obtain ⟨hloaded, hfind, _⟩ := row_of_pending hq
    exact ⟨hloaded, q, hfind, rfl, hsender⟩
  · rintro ⟨hloaded, q, hfind, hrow, hsender⟩
    exact ⟨q, mem_pending.2 ⟨row, hloaded, hfind⟩, hrow, hsender⟩

theorem mem_expired {id : MsgId} : id ∈ i.expired settings ↔
    ∃ row ∈ i.loaded, find settings i.now row = .expired id := by
  unfold expired findings
  rw [List.filterMap_map, List.mem_filterMap]
  refine exists_congr fun row => and_congr_right fun _ => ?_
  cases hfind : find settings i.now row <;> simp [hfind, Finding.expired?]

theorem mem_undecodable {id : MsgId} : id ∈ i.undecodable settings ↔
    ∃ row ∈ i.loaded, ∃ e, find settings i.now row = .undecodable id e := by
  unfold undecodable findings
  rw [List.filterMap_map, List.mem_map]
  constructor
  · rintro ⟨⟨id, e⟩, hmem, rfl⟩
    obtain ⟨row, hrow, hfind⟩ := List.mem_filterMap.1 hmem
    refine ⟨row, hrow, e, ?_⟩
    revert hfind
    cases hfound : find settings i.now row <;> simp [hfound, Finding.undecodable?]
  · rintro ⟨row, hrow, e, hfind⟩
    refine ⟨(id, e), List.mem_filterMap.2 ⟨row, hrow, ?_⟩, rfl⟩
    simp [hfind, Finding.undecodable?]

def Distinct (i : Intake) : Prop :=
  ∀ a ∈ i.loaded, ∀ b ∈ i.loaded, a.id = b.id → a = b

theorem Distinct.find_eq (h : i.Distinct) (hp : p ∈ i.pending settings) {row : Row}
    (hrow : row ∈ i.loaded) (hid : row.id = p.id) : find settings i.now row = .pending p := by
  obtain ⟨hloaded, hfind, _⟩ := row_of_pending hp
  rwa [h row hrow p.row hloaded hid]

theorem Distinct.eq_of_id_eq (h : i.Distinct) (hp : p ∈ i.pending settings)
    (hq : q ∈ i.pending settings) (hid : p.id = q.id) : p = q := by
  obtain ⟨hloaded, hfind, _⟩ := row_of_pending hp
  cases hfind.symm.trans (h.find_eq hq hloaded hid)
  rfl

theorem Distinct.not_mem_expired (h : i.Distinct) (hp : p ∈ i.pending settings) :
    p.id ∉ i.expired settings := by
  intro hmem
  obtain ⟨row, hrow, hfind⟩ := mem_expired.1 hmem
  cases hfind.symm.trans (h.find_eq hp hrow (id_of_expired hfind))

theorem Distinct.not_mem_undecodable (h : i.Distinct) (hp : p ∈ i.pending settings) :
    p.id ∉ i.undecodable settings := by
  intro hmem
  obtain ⟨row, hrow, e, hfind⟩ := mem_undecodable.1 hmem
  cases hfind.symm.trans (h.find_eq hp hrow (id_of_undecodable hfind))

end Intake

/-! ## Signers -/

namespace Makeup

/-- Of the senders with pending messages, some can sign and the others cannot. -/
def Parted (settings : Settings) (m : Makeup) : Prop :=
  Interleave (m.batches.map SenderBatch.msgs) m.unsignable (bySender (m.pending settings))

variable {batch : SenderBatch}

theorem Parted.nodup_senders (h : m.Parted settings) :
    ((m.batches.map fun batch => batch.msgs.sender) ++ m.unsignable.map SenderMsgs.sender).Nodup := by
  have hperm := (Interleave.perm h).map SenderMsgs.sender
  rw [List.map_append, List.map_map] at hperm
  exact hperm.nodup_iff.1 Dispatch.nodup_senders

theorem Parted.mem_batches (h : m.Parted settings) (hbatch : batch ∈ m.batches) :
    batch.msgs ∈ bySender (m.pending settings) :=
  (Interleave.perm h).mem_iff.2 (List.mem_append_left _ (List.mem_map_of_mem hbatch))

theorem Parted.mem_unsignable (h : m.Parted settings) (hg : g ∈ m.unsignable) :
    g ∈ bySender (m.pending settings) :=
  (Interleave.perm h).mem_iff.2 (List.mem_append_right _ hg)

theorem mem_starting {batches : List SenderBatch} {id : MsgId} : id ∈ starting batches ↔
    ∃ batch ∈ batches, ∃ p, batch.msgs.next = some p ∧ p.id = id := by
  unfold starting
  rw [List.mem_filterMap]
  refine exists_congr fun batch => and_congr_right fun _ => ?_
  rw [Option.map_eq_some_iff]

end Makeup

namespace Intake

variable {batch other : SenderBatch}

theorem Distinct.not_mem_ids (h : i.Distinct) (hg : g ∈ bySender (i.pending settings))
    (hg' : g' ∈ bySender (i.pending settings)) (hne : g.sender ≠ g'.sender) {id : MsgId}
    (hid : id ∈ g.ids) : id ∉ g'.ids := by
  intro hid'
  obtain ⟨p, hp, rfl⟩ := List.mem_map.1 hid
  obtain ⟨q, hq, heq⟩ := List.mem_map.1 hid'
  obtain ⟨hpmem, hpsender⟩ := mem_msgs hg hp
  obtain ⟨hqmem, hqsender⟩ := mem_msgs hg' hq
  obtain rfl := h.eq_of_id_eq hqmem hpmem heq
  exact hne (hpsender.symm.trans hqsender)

theorem Distinct.not_mem_unsignableIds (h : m.Distinct) (hparted : m.Parted settings)
    (hbatch : batch ∈ m.batches) {id : MsgId} (hid : id ∈ batch.msgs.ids) : id ∉ m.unsignableIds := by
  intro hmem
  obtain ⟨g, hg, hid'⟩ := List.mem_flatMap.1 hmem
  refine h.not_mem_ids (hparted.mem_batches hbatch) (hparted.mem_unsignable hg) (fun heq => ?_) hid hid'
  obtain ⟨_, _, hdisjoint⟩ := List.nodup_append.1 hparted.nodup_senders
  exact hdisjoint _ (List.mem_map.2 ⟨batch, hbatch, rfl⟩) _ (List.mem_map.2 ⟨g, hg, rfl⟩) heq

theorem Distinct.not_mem_others (h : m.Distinct) (hparted : m.Parted settings)
    {before after : List SenderBatch} (hbatches : m.batches = before ++ batch :: after)
    (hother : other ∈ before ++ after) {id : MsgId} (hid : id ∈ other.msgs.ids) :
    id ∉ batch.msgs.ids := by
  have hbatch : batch ∈ m.batches := by
    rw [hbatches]
    exact List.mem_append_right _ List.mem_cons_self
  have hmem : other ∈ m.batches := by
    rw [hbatches]
    rcases List.mem_append.1 hother with hother | hother
    · exact List.mem_append_left _ hother
    · exact List.mem_append_right _ (List.mem_cons_of_mem _ hother)
  refine h.not_mem_ids (hparted.mem_batches hmem) (hparted.mem_batches hbatch) (fun heq => ?_) hid
  obtain ⟨hnodup, _, _⟩ := List.nodup_append.1 hparted.nodup_senders
  rw [hbatches, List.map_append, List.map_cons] at hnodup
  have hnot := (List.nodup_cons.1 (List.nodup_middle.1 hnodup)).1
  rw [← List.map_append] at hnot
  exact hnot (List.mem_map.2 ⟨other, hother, heq⟩)

theorem Distinct.not_mem_starting (h : m.Distinct) (hparted : m.Parted settings)
    (hp : p ∈ m.pending settings) (hstarted : p.isStarted = true) : p.id ∉ starting m.batches := by
  intro hmem
  obtain ⟨batch, hbatch, q, hq, heq⟩ := Makeup.mem_starting.1 hmem
  obtain ⟨hqmem, _, hqstarted⟩ := mem_of_next (hparted.mem_batches hbatch) hq
  obtain rfl := h.eq_of_id_eq hqmem hp heq
  rw [hstarted] at hqstarted
  cases hqstarted

end Intake

end Dispatch

end ReportRelay
