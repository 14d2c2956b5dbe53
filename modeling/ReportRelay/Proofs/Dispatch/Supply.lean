import ReportRelay.Proofs.Dispatch.Reach
import ReportRelay.Proofs.Dispatch.Settlement
import ReportRelay.Proofs.Queue.Clearing

/-!
# Preparations that are supplied

The store refuses no move that a preparation asks for, since every message is named once and may move. So a
preparation is given up only when there is nothing to do, when its timeout is out of range, or when the keystore
or the price fails it.
-/

namespace ReportRelay.Dispatch

variable {chainId token : String} {s s' : Store} {settings : Settings} {i : Intake} {m : Makeup}
  {es : List (Event interface)} {ids : List MsgId} {state : MsgState} {id : MsgId} {row : Row} {p : Pending}

/-- The keystore does not crash, and there is a price in the token. -/
def supplies (token : String) : Event interface → Bool
  | ⟨.signer _, reply⟩ => (Reply.outcome (α := Signer) reply).isOk
  | ⟨.prices, reply⟩ => quotes token ⟨.prices, reply⟩
  | _ => true

theorem not_supplies_of_crash {sender : String} {reply : Reply Signer} {c : Crash} (h : reply.outcome = .error c) :
    supplies token (asking sender reply) = false := by
  simp [supplies, asking, h, Except.isOk, Except.toBool]

theorem not_supplies_of_missing {reply : Reply Prices}
    (h : ∀ prices, reply.outcome = .ok (.ok prices) → prices.find? token = none) :
    supplies token (pricing reply) = false := by
  have hquotes : quotes token (pricing reply) = false := by
    refine Bool.eq_false_iff.2 fun hquote => ?_
    obtain ⟨prices, hprices, hfound⟩ := (Option.any_eq_true ..).1 hquote
    rw [h prices (Reply.outcome_of_answer? hprices)] at hfound
    cases hfound
  exact hquotes

/-! ## Messages are named once -/

theorem exists_bySender {ps : List Pending} (hp : p ∈ ps) : ∃ g ∈ bySender ps, g.sender = p.sender :=
  ⟨_, List.mem_map_of_mem (mem_distinctSorted.2 (List.mem_map_of_mem hp)), rfl⟩

namespace Drawn

theorem nodup_loaded (h : Drawn chainId settings i s) : (i.loaded.map Row.id).Nodup := by
  rw [Intake.loaded, List.map_append]
  refine List.nodup_append.2 ⟨Store.nodup_ids_of_load h.lawful h.leftover,
    Store.nodup_ids_of_load h.lawful h.unstarted, fun a ha b hb heq => ?_⟩
  obtain ⟨left, hleft, rfl⟩ := List.mem_map.1 ha
  obtain ⟨new, hnew, rfl⟩ := List.mem_map.1 hb
  obtain ⟨hleftMem, _, hstarted⟩ := Store.mem_of_load h.leftover hleft
  obtain ⟨hnewMem, _, hunstarted⟩ := Store.mem_of_load h.unstarted hnew
  obtain rfl := h.lawful.eq_of_id_eq hleftMem hnewMem heq
  rw [hstarted] at hunstarted
  cases hunstarted

theorem nodup_picked (h : Drawn chainId settings i s) {α : Type} {pick : Finding → Option α} {key : α → MsgId}
    (hkey : ∀ row a, pick (find settings i.now row) = some a → row.id = key a) :
    (((i.findings settings).filterMap pick).map key).Nodup := by
  unfold Intake.findings
  rw [List.filterMap_map]
  refine List.pairwise_map.2 (List.pairwise_filterMap.2
    ((List.pairwise_map.1 h.nodup_loaded).imp fun {a b} hne x hx y hy => ?_))
  rwa [← hkey a x hx, ← hkey b y hy]

theorem nodup_expired (h : Drawn chainId settings i s) : (i.expired settings).Nodup := by
  rw [← List.map_id (i.expired settings)]
  refine h.nodup_picked fun row id hid => ?_
  cases hfind : find settings i.now row <;> rw [hfind] at hid <;> cases hid
  exact id_of_expired hfind

theorem nodup_undecodable (h : Drawn chainId settings i s) : (i.undecodable settings).Nodup := by
  refine h.nodup_picked fun row x hx => ?_
  cases hfind : find settings i.now row <;> rw [hfind] at hx <;> cases hx
  exact id_of_undecodable hfind

theorem nodup_flatMap_ids (h : Drawn chainId settings i s) {gs : List SenderMsgs}
    (hgs : gs.Sublist (bySender (i.pending settings))) : (gs.flatMap SenderMsgs.ids).Nodup := by
  have hsenders : (gs.map SenderMsgs.sender).Nodup := nodup_senders.sublist (hgs.map SenderMsgs.sender)
  refine List.nodup_flatMap.2 ⟨fun g hg => h.nodup_ids (hgs.subset hg), ?_⟩
  refine (List.pairwise_map.1 hsenders).imp_of_mem fun hg hg' hne id hid hid' => ?_
  exact h.distinct.not_mem_ids (hgs.subset hg) (hgs.subset hg') hne hid hid'

theorem nodup_unsignableIds (h : Drawn chainId settings m.toIntake s) (hparted : m.Parted settings) :
    m.unsignableIds.Nodup :=
  h.nodup_flatMap_ids (Interleave.sublist_left (Interleave.symm hparted))

theorem nodup_starting (h : Drawn chainId settings m.toIntake s) (hparted : m.Parted settings) :
    (starting m.batches).Nodup := by
  have hsenders : m.batches.Pairwise fun a b => a.msgs.sender ≠ b.msgs.sender :=
    List.pairwise_map.1 (List.nodup_append.1 hparted.nodup_senders).1
  refine List.pairwise_filterMap.2 (hsenders.imp_of_mem fun {a b} ha hb hne ia hia ib hib heq => ?_)
  have hids {batch : SenderBatch} {id : MsgId} (h : batch.msgs.next.map Pending.id = some id) :
      id ∈ batch.msgs.ids := by
    obtain ⟨p, hp, rfl⟩ := Option.map_eq_some_iff.1 h
    exact List.mem_map_of_mem (List.mem_append_right _ (Option.mem_toList.2 hp))
  subst heq
  exact h.distinct.not_mem_ids (hparted.mem_batches ha) (hparted.mem_batches hb) hne (hids hia) (hids hib)

end Drawn

/-! ## No move is refused -/

theorem Intake.Distinct.not_mem_expired_of_undecodable (h : i.Distinct) (hid : id ∈ i.undecodable settings) :
    id ∉ i.expired settings := by
  intro hexpired
  obtain ⟨a, ha, e, hundecodable⟩ := Intake.mem_undecodable.1 hid
  obtain ⟨b, hb, hfind⟩ := Intake.mem_expired.1 hexpired
  obtain rfl := h a ha b hb ((id_of_undecodable hundecodable).trans (id_of_expired hfind).symm)
  cases hundecodable.symm.trans hfind

theorem Drawn.movable_errored (h : Drawn chainId settings i s) (hnodup : ids.Nodup)
    (hids : ∀ id ∈ ids, ∃ row ∈ i.loaded, row.id = id ∧ row ∈ s'.rows) : s'.Movable chainId ids .errored := by
  refine ⟨hnodup, fun id hid => ?_⟩
  obtain ⟨row, hrow, hrowId, hkept⟩ := hids id hid
  refine ⟨row, hkept, (h.mem_loaded hrow).2, hrowId, ?_⟩
  rcases List.mem_append.1 hrow with hrow | hrow
  · rw [(Store.mem_of_load h.leftover hrow).2.2]
    rfl
  · rw [(Store.mem_of_load h.unstarted hrow).2.2]
    rfl

theorem Drawn.movable_expired (h : Drawn chainId settings i s) :
    s.Movable chainId (i.expired settings) .errored := by
  refine h.movable_errored h.nodup_expired fun id hid => ?_
  obtain ⟨row, hrow, hfind⟩ := Intake.mem_expired.1 hid
  exact ⟨row, hrow, id_of_expired hfind, (h.mem_loaded hrow).1⟩

theorem Drawn.movable_undecodable (h : Drawn chainId settings i s)
    (hpass : Passes chainId s (moves (i.expired settings) .errored) s') :
    s'.Movable chainId (i.undecodable settings) .errored := by
  refine h.movable_errored h.nodup_undecodable fun id hid => ?_
  obtain ⟨row, hrow, e, hfind⟩ := Intake.mem_undecodable.1 hid
  obtain rfl := id_of_undecodable hfind
  exact ⟨row, hrow, rfl, mem_of_moves h.lawful hpass (h.mem_loaded hrow).1
    (h.distinct.not_mem_expired_of_undecodable hid)⟩

theorem Drawn.movable_unsignableIds (h : Drawn chainId settings m.toIntake s) (hparted : m.Parted settings)
    (hpass : Passes chainId s (moves (m.expired settings) .errored ++ moves (m.undecodable settings) .errored) s') :
    s'.Movable chainId m.unsignableIds .errored := by
  obtain ⟨s₁, hexpired, hundecodable⟩ := passes_append.1 hpass
  refine h.movable_errored (h.nodup_unsignableIds hparted) fun id hid => ?_
  obtain ⟨g, hg, hid⟩ := List.mem_flatMap.1 hid
  obtain ⟨p, hp, rfl⟩ := List.mem_map.1 hid
  obtain ⟨hpending, _⟩ := mem_msgs (hparted.mem_unsignable hg) hp
  have hloaded := (Intake.row_of_pending hpending).1
  refine ⟨p.row, hloaded, rfl, ?_⟩
  have hrow₁ := mem_of_moves h.lawful hexpired (h.mem_loaded hloaded).1 (h.distinct.not_mem_expired hpending)
  exact mem_of_moves (evolves_of_passes h.lawful hexpired).lawful hundecodable hrow₁
    (h.distinct.not_mem_undecodable hpending)

theorem MadeUp.movable_starting (h : MadeUp chainId settings m s s') :
    s'.Movable chainId (starting m.batches) .started := by
  refine ⟨h.nodup_starting h.parted, fun id hid => ?_⟩
  obtain ⟨batch, hbatch, p, hp, rfl⟩ := Makeup.mem_starting.1 hid
  obtain ⟨hloaded, hrow⟩ := h.mem_row hbatch (List.mem_append_right _ (Option.mem_toList.2 hp))
  refine ⟨p.row, hrow, (h.mem_loaded hloaded).2, rfl, ?_⟩
  rw [(Store.mem_of_load h.unstarted (h.unstarted_of_next (h.parted.mem_batches hbatch) hp)).2.2]
  rfl

theorem not_refused {e : Error} (hs : s.Lawful) (hids : s.Movable chainId ids state) (hstate : state ≠ .broadcasted) :
    ¬Passes chainId s [moving ids state (.error e)] s' := by
  intro hpass
  cases (passes_moving_of_movable hs hids hpass hstate).1

/-- A preparation that is supplied finds nothing to do, or nobody who could send anything, or makes a plan. -/
theorem Prepares.cases_of_supplies {r : Except Crash (Except Error (Option Plan))} (h : Prepares settings es r)
    (hsupplies : ∀ e ∈ es, supplies settings.gasToken e = true)
    (htimely : settings.msgTimeout ≤ Settings.longestTimeout) (hs : s.Lawful) (hpass : Passes chainId s es s') :
    (s' = s ∧ s.oldest chainId .started settings.maxMsgsPerBatch = [] ∧
        s.oldest chainId .unstarted settings.maxMsgsPerBatch = []) ∨
      (∃ m, Opens settings m es ∧ m.batches = []) ∨ ∃ plan, r = .ok (.ok (some plan)) := by
  -- a load is refused only when it has no room, and a move of movable messages is not refused at all
  cases h with
  | unloaded =>
    obtain ⟨hload, hend⟩ := loaded_of_passes hpass
    have hlimit := Store.lt_one_of_load hs hload
    exact .inl ⟨hend, Store.oldest_eq_nil hlimit, Store.oldest_eq_nil hlimit⟩
  | halfLoaded =>
    obtain ⟨_, hpass⟩ := loaded_of_passes hpass
    obtain ⟨hload, hend⟩ := loaded_of_passes hpass
    have hlimit := Store.lt_one_of_load hs hload
    exact .inl ⟨hend, Store.oldest_eq_nil hlimit, Store.oldest_eq_nil hlimit⟩
  | idle =>
    obtain ⟨hleftover, hpass⟩ := loaded_of_passes hpass
    obtain ⟨hunstarted, hend⟩ := loaded_of_passes hpass
    exact .inl ⟨hend, (Store.load_ok hleftover).2.symm, (Store.load_ok hunstarted).2.symm⟩
  | untimely tooLong => exact absurd htimely (Nat.not_le.2 tooLong)
  | notExpired =>
    obtain ⟨hdrawn, hpass⟩ := drawn_of_takenIn hs hpass
    exact absurd hpass (not_refused hs hdrawn.movable_expired nofun)
  | notDropped =>
    obtain ⟨hdrawn, hpass⟩ := drawn_of_takenIn hs hpass
    obtain ⟨s₁, hexpired, hpass⟩ := passes_append.1 hpass
    have h₁ := evolves_of_passes hs hexpired
    exact absurd hpass (not_refused h₁.lawful (hdrawn.movable_undecodable hexpired) nofun)
  | notAsked _ crashed =>
    obtain ⟨sender, reply, hasked, hcrash⟩ := crashed
    have hno := hsupplies _ (List.mem_append_right _ (List.mem_append_right _ (List.mem_append_right _ hasked)))
    rw [not_supplies_of_crash hcrash] at hno
    cases hno
  | notMarked asks =>
    obtain ⟨hdrawn, hpass⟩ := drawn_of_takenIn hs hpass
    obtain ⟨s₁, hexpired, hpass⟩ := passes_append.1 hpass
    obtain ⟨s₂, hundecodable, hpass⟩ := passes_append.1 hpass
    obtain ⟨s₃, hasked, hmark⟩ := passes_append.1 hpass
    obtain rfl := passes_of_asking asks.eq_asking hasked
    have herrored := passes_append.2 ⟨s₁, hexpired, hundecodable⟩
    have h₃ := evolves_of_passes hs herrored
    exact absurd hmark (not_refused h₃.lawful (hdrawn.movable_unsignableIds asks.interleave herrored) nofun)
  | noBatches opens nobody => exact .inr (.inl ⟨_, opens, nobody⟩)
  | notStarted opens =>
    obtain ⟨s₁, hopening, hpass⟩ := passes_append.1 hpass
    have hmade := opens.madeUp hs hopening
    exact absurd hpass (not_refused hmade.evolves.lawful hmade.movable_starting nofun)
  | unpriced _ missing =>
    have hno := hsupplies _ (List.mem_append_right _ (List.mem_append_right _ (List.mem_singleton_self _)))
    rw [not_supplies_of_missing missing] at hno
    cases hno
  | planned => exact .inr (.inr ⟨_, rfl⟩)

end ReportRelay.Dispatch
