import ReportRelay.Proofs.Dispatch.CommandCourse
import ReportRelay.Proofs.Dispatch.Reach

/-!
# One new message at a time

However many messages of a sender wait, a batch touches at most the oldest of them. The others stay exactly as they
are, whether the first one is sent, errored or left started, and so does every row that the batch has not loaded.
-/

namespace ReportRelay.Dispatch

variable {chainId : String} {s s' : Store} {settings : Settings} {i : Intake} {es : List (Event interface)}
  {now : Int} {sender : String} {row older : Row}

/-- The messages of a sender that wait to be sent: new, readable and not expired. -/
def waiting (chainId : String) (settings : Settings) (now : Int) (sender : String) (store : Store) : List Row :=
  store.rows.filter fun row =>
    row.chainId = chainId ∧ row.state = .unstarted ∧ isDue settings now sender row = true

theorem mem_waiting : row ∈ waiting chainId settings now sender s ↔
    row ∈ s.rows ∧ row.chainId = chainId ∧ row.state = .unstarted ∧ isDue settings now sender row = true := by
  simp [waiting]

/-- What a batch at the given time leaves of the messages that wait, and of all that it has not loaded. -/
structure Exclusive (chainId : String) (settings : Settings) (now : Int) (sender : String)
    (before after : Store) : Prop where
  single : ∀ a ∈ waiting chainId settings now sender before, ∀ b ∈ waiting chainId settings now sender before,
    a ∉ after.rows → b ∉ after.rows → a = b
  oldest : ∀ a ∈ waiting chainId settings now sender before, a ∉ after.rows →
    ∀ b ∈ waiting chainId settings now sender before, a.id ≤ b.id
  younger : ∀ a ∈ waiting chainId settings now sender before,
    ∀ b ∈ waiting chainId settings now sender before, a.id < b.id → b ∈ after.rows
  beyond : ∀ row ∈ before.rows, row ∉ before.oldest chainId .started settings.maxMsgsPerBatch →
    row ∉ before.oldest chainId .unstarted settings.maxMsgsPerBatch → row ∈ after.rows

namespace Drawn

theorem mem_loaded_iff (h : Drawn chainId settings i s) : row ∈ i.loaded ↔
    row ∈ s.oldest chainId .started settings.maxMsgsPerBatch ∨
      row ∈ s.oldest chainId .unstarted settings.maxMsgsPerBatch := by
  obtain ⟨_, hleftover⟩ := Store.load_ok h.leftover
  obtain ⟨_, hunstarted⟩ := Store.load_ok h.unstarted
  rw [← hleftover, ← hunstarted]
  exact List.mem_append

/-- A message that waits behind an older one is out of reach. -/
theorem not_mem_reach (h : Drawn chainId settings i s) (hrow : row ∈ waiting chainId settings i.now sender s)
    (holder : older ∈ waiting chainId settings i.now sender s) (hlt : older.id < row.id) :
    row.id ∉ i.reach settings := by
  intro hreach
  obtain ⟨hmem, _, hnew, hdue⟩ := mem_waiting.1 hrow
  obtain ⟨holderMem, holderChain, holderNew, holderDue⟩ := mem_waiting.1 holder
  have hloaded := h.exists_loaded hmem hreach
  obtain ⟨q, hq, rfl, hsender⟩ := Intake.exists_pending_iff.2 ⟨hloaded, hdue⟩
  rcases List.mem_append.1 hreach with hexpired | hreach
  · exact h.distinct.not_mem_expired hq hexpired
  rcases List.mem_append.1 hreach with hundecodable | hreach
  · exact h.distinct.not_mem_undecodable hq hundecodable
  obtain ⟨g, hg, hid⟩ := List.mem_flatMap.1 hreach
  obtain ⟨p, hp, hpid⟩ := List.mem_map.1 hid
  obtain ⟨hpending, hpsender⟩ := mem_msgs hg hp
  obtain rfl := h.distinct.eq_of_id_eq hpending hq hpid
  -- it is new, so it could only be the one that its sender has next
  have hnext : g.next = some p := by
    rcases List.mem_append.1 hp with hstarted | hnext
    · have hstate := isStarted_iff.1 ((mem_started hg).1 hstarted).2.2
      rw [hnew] at hstate
      cases hstate
    · exact Option.mem_toList.1 hnext
  have hunstarted := h.unstarted_of_next hg hnext
  have holderLoaded : older ∈ i.loaded := List.mem_append_right _
    (Store.mem_load_of_older h.lawful h.unstarted hunstarted holderMem holderChain holderNew hlt)
  obtain ⟨r, hr, rfl, hrsender⟩ := Intake.exists_pending_iff.2 ⟨holderLoaded, holderDue⟩
  have hle := h.next_le_pending hg hnext hr (hrsender.trans (hsender.symm.trans hpsender)) holderNew
  exact Int.not_le.2 hlt hle

end Drawn

theorem Exclusive.of_younger (hs : s.Lawful)
    (younger : ∀ a ∈ waiting chainId settings now sender s, ∀ b ∈ waiting chainId settings now sender s,
      a.id < b.id → b ∈ s'.rows)
    (beyond : ∀ row ∈ s.rows, row ∉ s.oldest chainId .started settings.maxMsgsPerBatch →
      row ∉ s.oldest chainId .unstarted settings.maxMsgsPerBatch → row ∈ s'.rows) :
    Exclusive chainId settings now sender s s' := by
  have holdest : ∀ a ∈ waiting chainId settings now sender s, a ∉ s'.rows →
      ∀ b ∈ waiting chainId settings now sender s, a.id ≤ b.id := by
    intro a ha hgone b hb
    by_contra hlt
    exact hgone (younger b hb a ha (Int.not_le.1 hlt))
  refine ⟨fun a ha b hb hagone hbgone => ?_, holdest, younger, beyond⟩
  have hid : a.id = b.id := Int.le_antisymm (holdest a ha hagone b hb) (holdest b hb hbgone a ha)
  exact hs.eq_of_id_eq (mem_waiting.1 ha).1 (mem_waiting.1 hb).1 hid

theorem Reaches.exclusive (h : Reaches settings i es) (hs : s.Lawful) (hpass : Passes chainId s es s') :
    Exclusive chainId settings i.now sender s s' := by
  have hdrawn := h.drawn hs hpass
  refine .of_younger hs (fun a ha b hb hlt => ?_) fun row hrow hstarted hunstarted => ?_
  · exact h.mem_of_passes hs hpass (mem_waiting.1 hb).1 (hdrawn.not_mem_reach hb ha hlt)
  · refine h.mem_of_passes hs hpass hrow fun hreach => ?_
    have hloaded := hdrawn.exists_loaded hrow hreach
    exact (hdrawn.mem_loaded_iff.1 hloaded).elim hstarted hunstarted

/-- Of the messages of one sender that wait at the time of a batch, at most the oldest one is touched, whoever else
is asked and whether they answer, fail or crash; and the batch touches no row that it has no room for. -/
theorem exclusive_of_batch {E : Type} (others : Collaborators E) (chainId : String) (env : E) (store : Store)
    (hs : store.Lawful) (settings : Settings) (sender : String) (now : Int)
    (hclock : ∀ time ∈ clockReadings
      (events (World.session chainId others env store [.sendMsgBatch settings]).history), time = now) :
    Exclusive chainId settings now sender store
      (World.session chainId others env store [.sendMsgBatch settings]).store := by
  obtain ⟨⟨r, htakes⟩, hrecorded, _⟩ := course_of_command chainId others env store (.sendMsgBatch settings)
  obtain ⟨o, ho⟩ := takes_outcome htakes
  have hpass := passes_deeds.2 hrecorded.passes
  rcases takes_sendMsgBatch_reaches ho with hnone | ⟨i, hreaches⟩
  · have hkept : ∀ row ∈ store.rows,
        row ∈ (World.session chainId others env store [.sendMsgBatch settings]).store.rows := by
      intro row hrow
      refine mem_of_spares hs hpass (fun e he ids state txHash hmove => ?_) hrow
      rw [hnone e he] at hmove
      cases hmove
    exact .of_younger hs (fun _ _ b hb _ => hkept b (mem_waiting.1 hb).1) fun row hrow _ _ => hkept row hrow
  · obtain ⟨fs, hdeeds, _⟩ := id hreaches
    have hmem : clockRead i.now ∈ deeds
        (events (World.session chainId others env store [.sendMsgBatch settings]).history) := by
      rw [hdeeds]
      exact List.mem_append_left _ (List.mem_of_getLast? rfl)
    obtain rfl := hclock i.now (mem_clockReadings (List.mem_of_mem_filter hmem))
    exact hreaches.exclusive hs hpass

/-- Of two payments that wait, the first is sent and the second waits on. -/
theorem exclusive_of_two_payments :
    (waiting "chain" (limitedSettings 2) 0 "a12uel5l" (payments 2)).map Row.id = [1, 2] ∧
      (World.session "chain" obliging 0 (payments 2) [.sendMsgBatch (limitedSettings 2)]).store.rows.map
        Row.state = [.confirmed, .unstarted] ∧
      Exclusive "chain" (limitedSettings 2) 0 "a12uel5l" (payments 2)
        (World.session "chain" obliging 0 (payments 2) [.sendMsgBatch (limitedSettings 2)]).store :=
  ⟨by decide +kernel, by decide +kernel, exclusive_of_batch obliging "chain" 0 (payments 2) (lawful_payments 2)
    (limitedSettings 2) "a12uel5l" 0 (by decide +kernel)⟩

end ReportRelay.Dispatch
