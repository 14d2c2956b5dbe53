import ReportRelay.Proofs.Dispatch.Clearance
import ReportRelay.Proofs.Dispatch.Overlap

/-!
# Closure of a cycle

A store whose started and broadcasted rows fit into one batch has none of either left after a responsive cycle: what was
under way is confirmed or errored, and what the cycle itself started does not outlast it.
-/

namespace ReportRelay.Dispatch

variable {chainId : String} {s s' : Store} {settings : Settings} {ids : List MsgId} {row : Row}

/-- Nothing is under way later, and all that was under way before is confirmed or errored. -/
structure Closed (chainId : String) (before later : Store) : Prop where
  started : later.inState chainId .started = []
  broadcasted : later.inState chainId .broadcasted = []
  ended : ∀ row ∈ before.rows, row.chainId = chainId → row.state = .started ∨ row.state = .broadcasted →
    ∃ row' ∈ later.rows, row.Evolves row' ∧ (row'.state = .confirmed ∨ row'.state = .errored)

theorem closed_of_clears (h : s.Clears ids s') (hstarted : ∀ row ∈ s.inState chainId .started, row.id ∈ ids)
    (hbroadcasted : ∀ row ∈ s.inState chainId .broadcasted, row.id ∈ ids) : Closed chainId s s' where
  started := h.inState_eq_nil rfl hstarted
  broadcasted := h.inState_eq_nil rfl hbroadcasted
  ended row hrow hchain hstate := by
    have hid : row.id ∈ ids := by
      rcases hstate with hstate | hstate
      · exact hstarted row (Store.mem_inState.2 ⟨hrow, hchain, hstate⟩)
      · exact hbroadcasted row (Store.mem_inState.2 ⟨hrow, hchain, hstate⟩)
    obtain ⟨row', hrow', hevolves, hterminal⟩ := h.evolves.exists_terminal hrow (h.resolved row.id hid)
    exact ⟨row', hrow', hevolves, MsgState.isTerminal_iff.1 hterminal⟩

/-- After a responsive cycle with room for all rows that were under way, none are. -/
theorem closed_of_cycle {E : Type} (others : Collaborators E) (chainId : String) (env : E) (store : Store)
    (hs : store.Lawful) (settings : Settings)
    (htimely : settings.msgTimeout ≤ Settings.longestTimeout)
    (hstarted : ((store.inState chainId .started).length : Int) ≤ settings.maxMsgsPerBatch)
    (hbroadcasted : ((store.inState chainId .broadcasted).length : Int) ≤ settings.maxMsgsPerBatch)
    (hresponds : ∀ e ∈ events (World.session chainId others env store [.pollCycle settings]).history,
      responds settings.gasToken e = true) :
    Closed chainId store (World.session chainId others env store [.pollCycle settings]).store := by
  obtain ⟨⟨r, htakes⟩, hrecorded, _⟩ := course_of_command chainId others env store (.pollCycle settings)
  obtain ⟨ids, hclears, hcovers, hswept⟩ := clears_of_cycle htakes hresponds htimely hs hrecorded.passes
  refine closed_of_clears hclears (fun row hrow => hcovers.started row ?_) fun row hrow => hswept row ?_
  · rwa [Store.oldest_of_length_le hstarted]
  · rwa [Store.oldest_of_length_le hbroadcasted]

/-- Two payments broadcasted in one transaction and a third one started. -/
def underWay : Store :=
  (World.session "chain" obliging 1 leftInFlight [.sendMsgBatch (limitedSettings 2)]).store

/-- One cycle ends all three of them. -/
theorem closed_of_underWay : underWay.rows.map Row.state = [.broadcasted, .broadcasted, .started] ∧
    (World.session "chain" obliging 0 underWay [.pollCycle (limitedSettings 2)]).store.rows.map Row.state =
      [.confirmed, .confirmed, .confirmed] ∧
    Closed "chain" underWay (World.session "chain" obliging 0 underWay [.pollCycle (limitedSettings 2)]).store :=
  ⟨by decide +kernel, by decide +kernel, closed_of_cycle obliging "chain" 0 underWay
    (lawful_session "chain" obliging 1 lawful_leftInFlight _) (limitedSettings 2) (by decide) (by decide +kernel)
    (by decide +kernel) (by decide +kernel)⟩

end ReportRelay.Dispatch
