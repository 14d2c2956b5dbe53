import ReportRelay.Proofs.Dispatch.HeldBack
import ReportRelay.Proofs.Queue.Blame

/-!
# Errors of a batch

A batch that fails hands on an error that it was answered with, by the store or by whoever was asked for prices. It has
two errors of its own: that there is no price in the token, and that ages cannot be compared with the timeout of
messages. With such a timeout every batch fails that has found a message.
-/

namespace ReportRelay.Dispatch

variable {α β : Type} {settings : Settings} {limit : Int} {own : Error → Prop} {x : Action α} {chainId : String}
  {s s' : Store} {t : List (Event interface)} {e : Error}

/-! ## Errors that are handed on -/

/-- Somebody answers with the error. -/
inductive Answers (limit : Int) (e : Error) : Event interface → Prop
  | loading {state : MsgState} : Answers limit e (loading state limit (.error e))
  | moving {ids : List MsgId} {state : MsgState} : Answers limit e (moving ids state (.error e))
  | pricing {reply : Reply Prices} (outcome_eq : reply.outcome = .ok (.error e)) : Answers limit e (pricing reply)

/-- An error is one of the action's own, or the answer to something that it has asked. -/
def Echoes (limit : Int) (own : Error → Prop) (x : Action α) : Prop :=
  ∀ t e, x.Takes t (.ok (.error e)) → own e ∨ ∃ m ∈ t, Answers limit e m

namespace Echoes

theorem pure (a : α) : Echoes limit own (Pure.pure a : Action α) := by
  rintro t e ⟨_, heq⟩
  cases heq

theorem throw (h : own e) : Echoes limit own (throw e : Action α) := by
  rintro t e' ⟨_, heq⟩
  cases heq
  exact .inl h

theorem ofDialogue (p : Run α) : Echoes limit own (.ofDialogue p) := by
  intro t e h
  obtain ⟨_ | _, _, heq⟩ := Attempt.takes_ofDialogue.1 h <;> cases heq

theorem bind {f : α → Action β} (hx : Echoes limit own x) (hf : ∀ a, Echoes limit own (f a)) :
    Echoes limit own (x >>= f) := by
  intro t e h
  rcases Attempt.takes_bind.1 h with ⟨failure, htakes, heq⟩ | ⟨a, u, v, rfl, _, htakes⟩
  · cases failure with
    | crash c => cases heq
    | error e' =>
      cases heq
      exact hx t e htakes
  · rcases hf a v e htakes with hown | ⟨m, hm, hanswers⟩
    · exact .inl hown
    · exact .inr ⟨m, List.mem_append_right u hm, hanswers⟩

theorem of_deed {m : Event interface} (hdeeds : deeds t = [m]) (h : Answers limit e m) :
    ∃ m ∈ t, Answers limit e m := by
  have hm : m ∈ deeds t := hdeeds ▸ List.mem_singleton_self m
  exact ⟨m, List.mem_of_mem_filter hm, h⟩

theorem load (state : MsgState) : Echoes limit own (load state limit) := by
  intro t e h
  obtain ⟨a, hdeeds, heq⟩ := takes_load h
  cases heq
  exact .inr (of_deed hdeeds .loading)

theorem updateAny (ids : List MsgId) (state : MsgState) : Echoes limit own (updateAny ids state) := by
  intro t e h
  rcases takes_updateAny h with ⟨heq, _⟩ | ⟨e', heq, hdeeds⟩
  · cases heq
  · cases heq
    exact .inr (of_deed hdeeds .moving)

theorem currentPrices : Echoes limit own currentPrices := by
  intro t e h
  obtain ⟨reply, rfl, heq⟩ := takes_currentPrices.1 h
  exact .inr ⟨_, List.mem_singleton_self _, .pricing heq.symm⟩

end Echoes

/-! ## The errors of a batch -/

/-- Ages cannot be compared with the timeout of messages. -/
def untimely : Error :=
  .config "invalid tx_msg_timeout: Source duration value is out of range for the target type"

/-- The errors that come from nobody else. -/
inductive OwnError (settings : Settings) : Error → Prop
  | noPrice : OwnError settings (.gasPrice s!"no gas price for {settings.gasToken}")
  | untimely (tooLong : Settings.longestTimeout < settings.msgTimeout) : OwnError settings untimely

theorem echoes_sortOut (now : Int) (rows : List Row) : Echoes limit own (sortOut settings now rows) := by
  unfold sortOut
  refine .bind (.ofDialogue _) fun _ => ?_
  dsimp only
  split
  · exact .bind (.ofDialogue _) fun _ => .bind (.updateAny _ _) fun _ => .bind (.updateAny _ _) fun _ => .pure _
  · exact .bind (.updateAny _ _) fun _ => .bind (.updateAny _ _) fun _ => .pure _

theorem echoes_priceOfToken : Echoes limit (OwnError settings) (priceOfToken settings) := by
  unfold priceOfToken
  refine .bind .currentPrices fun prices => ?_
  split
  · exact .throw .noPrice
  · exact .bind (.ofDialogue _) fun _ => .pure _

theorem echoes_sendBatches (batches : List SenderBatch) :
    Echoes limit (OwnError settings) (sendBatches settings batches) :=
  .bind (.updateAny _ _) fun _ => .bind echoes_priceOfToken fun _ => .ofDialogue _

theorem echoes_sendMsgBatch (settings : Settings) :
    Echoes settings.maxMsgsPerBatch (OwnError settings) (sendMsgBatch settings) := by
  unfold sendMsgBatch
  refine .bind (.load _) fun leftover => .bind (.load _) fun unstarted => ?_
  split
  · exact .pure _
  refine .bind (.ofDialogue _) fun now => ?_
  split
  · next htooLong => exact .throw (.untimely htooLong)
  refine .bind (echoes_sortOut _ _) fun pending => .bind (.ofDialogue _) fun (batches, unsignable) => ?_
  refine .bind (.updateAny _ _) fun _ => ?_
  split
  · exact .pure _
  · exact echoes_sendBatches batches

/-! ## Who is to blame -/

/-- What the store answers to a load with some room, or to a move, blames no setting. -/
theorem Answers.pricing_of_blames {m : Event interface} (h : Answers limit e m) (hlimit : 1 ≤ limit)
    (hmeets : Meets chainId m s s') (hblames : e.BlamesSettings) :
    ∃ reply : Reply Prices, m = Dispatch.pricing reply ∧ reply.outcome = .ok (.error e) := by
  cases h with
  | @loading state =>
    have hload : (s.load chainId state limit, s) = (.error e, s') := hmeets
    exact absurd hblames (Store.not_blames_of_load hlimit (congrArg Prod.fst hload))
  | @moving ids state =>
    have hupdate : s.update chainId ids state none = (.error e, s') := hmeets
    exact absurd hblames (Store.not_blames_of_update (congrArg Prod.fst hupdate))
  | pricing outcome_eq => exact ⟨_, rfl, outcome_eq⟩

/-- A batch with some room and a timeout that ages can be compared with hands on an error that blames the settings only
from whoever was asked for prices, whatever is in the store meanwhile. -/
theorem exists_pricing_of_blames (hlimit : 1 ≤ settings.maxMsgsPerBatch)
    (htimely : settings.msgTimeout ≤ Settings.longestTimeout)
    (h : (sendMsgBatch settings).Takes t (.ok (.error e)))
    (hmeets : ∀ m ∈ t, ∃ before later, Meets chainId m before later) (hblames : e.BlamesSettings) :
    ∃ reply : Reply Prices, pricing reply ∈ t ∧ reply.outcome = .ok (.error e) := by
  rcases echoes_sendMsgBatch settings t e h with hown | ⟨m, hm, hanswers⟩
  · cases hown with
    | noPrice => exact hblames.elim
    | untimely tooLong => exact absurd htimely (Nat.not_le.2 tooLong)
  · obtain ⟨before, later, hmeets⟩ := hmeets m hm
    obtain ⟨reply, rfl, houtcome⟩ := hanswers.pricing_of_blames hlimit hmeets hblames
    exact ⟨reply, hm, houtcome⟩

theorem meets_of_passes (h : Passes chainId s t s') : ∀ m ∈ t, ∃ before later, Meets chainId m before later := by
  induction t generalizing s with
  | nil => exact List.forall_mem_nil _
  | cons m t ih =>
    obtain ⟨later, hmeets, hpass⟩ := h
    exact List.forall_mem_cons.2 ⟨⟨s, later, hmeets⟩, ih hpass⟩

/-! ## Timeouts that are too long -/

/-- What follows a load works with what the store has to offer. -/
theorem takes_load_bind {state : MsgState} {rows : List Row} {f : List Row → Action α}
    {r : Except Crash (Except Error α)} (hload : s.load chainId state limit = .ok rows)
    (h : (load state limit >>= f).Takes t r) (hpass : Passes chainId s t s') :
    ∃ u, deeds t = loading state limit (.ok rows) :: deeds u ∧ (f rows).Takes u r ∧ Passes chainId s u s' := by
  have hanswer {a : Except Error (List Row)} {u v : List (Event interface)} {later : Store}
      (hdeeds : deeds u = [loading state limit a]) (hpass : Passes chainId s (u ++ v) later) :
      a = .ok rows ∧ Passes chainId s v later := by
    rw [← passes_deeds, deeds_append, hdeeds] at hpass
    obtain ⟨ha, hpass⟩ := loaded_of_passes hpass
    exact ⟨ha.symm.trans hload, passes_deeds.1 hpass⟩
  rcases Attempt.takes_bind.1 h with ⟨failure, hf, _⟩ | ⟨leftover, u, v, rfl, hu, hv⟩
  · obtain ⟨a, hdeeds, hresult⟩ := takes_load hf
    obtain ⟨rfl, _⟩ := hanswer hdeeds ((List.append_nil t).symm ▸ hpass)
    cases failure <;> cases hresult
  · obtain ⟨a, hdeeds, hresult⟩ := takes_load hu
    obtain ⟨rfl, hpass⟩ := hanswer hdeeds hpass
    cases hresult
    exact ⟨v, by rw [deeds_append, hdeeds]; rfl, hv, hpass⟩

/-- With a timeout that is too long, a batch that finds messages fails as soon as it has looked at the clock. -/
theorem untimely_of_loadable {r : Except Crash (Except Error Unit)}
    (htooLong : Settings.longestTimeout < settings.msgTimeout) (hlimit : 1 ≤ settings.maxMsgsPerBatch)
    (hmigrated : s.migrated = true) (hsome : loadable chainId settings s ≠ [])
    (h : (sendMsgBatch settings).Takes t r) (hpass : Passes chainId s t s') :
    r = .ok (.error untimely) ∧ s' = s ∧ ∃ i, deeds t = takenIn settings i := by
  have hload (state : MsgState) : s.load chainId state settings.maxMsgsPerBatch =
      .ok (s.oldest chainId state settings.maxMsgsPerBatch) := by
    rw [Store.load, if_neg (Int.not_lt.2 hlimit), if_pos hmigrated]
    rfl
  unfold sendMsgBatch at h
  obtain ⟨u, hdeeds, hu, hpassU⟩ := takes_load_bind (hload _) h hpass
  obtain ⟨v, hdeedsU, hv, hpassV⟩ := takes_load_bind (hload _) hu hpassU
  rw [if_neg (by simpa [loadable] using hsome)] at hv
  rcases Attempt.takes_ofDialogue_bind.1 hv with ⟨c, hc, _⟩ | ⟨now, _, _, rfl, hnow, hend⟩
  · obtain ⟨_, _, heq⟩ := takes_ask.1 hc
    cases heq
  obtain ⟨_, rfl, heq⟩ := takes_ask.1 hnow
  cases heq
  rw [if_pos htooLong] at hend
  obtain ⟨rfl, rfl⟩ := hend
  refine ⟨rfl, passes_singleton.1 hpassV, ⟨s.oldest chainId .started settings.maxMsgsPerBatch,
    s.oldest chainId .unstarted settings.maxMsgsPerBatch, now⟩, ?_⟩
  rw [hdeeds, hdeedsU]
  rfl

end ReportRelay.Dispatch
