import ReportRelay.Proofs.Dispatch.Payload

/-!
# What is signed, what was simulated and what is marked

A sender's transaction holds the messages that were simulated for it, all of which succeeded, and it is built from the
answers that the client gave on the way. When the chain accepts it, the rows that become broadcasted are those whose
messages it holds, and no others.
-/

namespace ReportRelay

namespace ClientCall

def isAccount : ClientCall → Bool
  | account _ => true
  | _ => false

def isCreateAndSign : ClientCall → Bool
  | createAndSign .. => true
  | _ => false

def isBroadcast : ClientCall → Bool
  | broadcast _ => true
  | _ => false

end ClientCall

namespace Dispatch

variable {chainId sender txHash : String} {s s' made n before after : Store} {settings : Settings}
  {gasPrice : DecCoin} {m : Makeup} {batch : SenderBatch} {behalf : Behalf} {msgs : List SimMsg} {tx : UnsignedTx}
  {bytes : Bytes} {ids : List MsgId} {state : MsgState} {a : Except Error Unit}
  {t u v w es front past : List (Event interface)} {r : Except Crash (Except Error Unit)}

/-! ## Up to the signature -/

/-- The calls that lead to a transaction, with the answers that it is built from. -/
inductive Prelude (settings : Settings) (behalf : Behalf) (msgs : List SimMsg) (tx : UnsignedTx) :
    List (Event interface) → Prop
  | answered {account : Account} {simulation : Simulation} {gasUsed height : Nat} {toAccount : Reply Account}
    {toSimulateEach : Reply Simulation} {toSimulate toLatestBlock : Reply Nat}
    (account_eq : toAccount.outcome = .ok (.ok account))
    (simulation_eq : toSimulateEach.outcome = .ok (.ok simulation))
    (succeeded : ∀ msg ∈ msgs, msg.id ∈ simulation.succeeded.map SimMsg.id)
    (gasUsed_eq : toSimulate.outcome = .ok (.ok gasUsed))
    (height_eq : toLatestBlock.outcome = .ok (.ok height))
    (messages : tx.messages = msgs.map SimMsg.message)
    (accountNumber : tx.accountNumber = account.number)
    (sequence : tx.sequence = account.sequence)
    (gasLimit : tx.gasLimit = gasUsed)
    (timeoutHeight : 0 ≤ height + settings.blocksUntilTxTimeout → height + settings.blocksUntilTxTimeout < 2 ^ 64 →
      (tx.timeoutHeight : Int) = height + settings.blocksUntilTxTimeout) :
    Prelude settings behalf msgs tx
      [called behalf (.account behalf.sender) toAccount,
        called behalf (.simulateEach msgs account.sequence) toSimulateEach,
        called behalf (.simulate tx.messages account.sequence) toSimulate,
        called behalf .latestBlock toLatestBlock]

/-- All calls for a sender that had something signed: the transaction was simulated and built before, and only what
comes of signing it is broadcast afterwards. -/
inductive SignedAsSimulated (settings : Settings) (behalf : Behalf) (rows : List Row) : List (Event interface) → Prop
  | signed {msgs : List SimMsg} {tx : UnsignedTx} {signer : Signer} {toSign : Reply Bytes}
    {front later : List (Event interface)} (conveys : List.Forall₂ Conveys rows msgs)
    (led : Prelude settings behalf msgs tx front)
    (sent : ∀ other bytes reply, called other (.broadcast bytes) reply ∈ later → toSign.outcome = .ok (.ok bytes)) :
    SignedAsSimulated settings behalf rows (front ++ called behalf (.createAndSign tx signer) toSign :: later)

/-- The call signs a transaction or broadcasts one. -/
def transacts : Event interface → Bool
  | ⟨.client _ (.createAndSign ..), _⟩ | ⟨.client _ (.broadcast _), _⟩ => true
  | _ => false

theorem Settings.timeoutHeight_eq {height : Nat} (hlow : 0 ≤ height + settings.blocksUntilTxTimeout)
    (hhigh : height + settings.blocksUntilTxTimeout < 2 ^ 64) :
    (settings.timeoutHeight height : Int) = height + settings.blocksUntilTxTimeout := by
  rw [Settings.timeoutHeight, Int.emod_eq_of_lt hlow hhigh, Int.toNat_of_nonneg hlow]

theorem Prelude.not_transacts (h : Prelude settings behalf msgs tx front) : ∀ e ∈ front, transacts e = false := by
  cases h
  simp only [List.forall_mem_cons]
  exact ⟨rfl, rfl, rfl, rfl, List.forall_mem_nil _⟩

theorem Prelude.callsFor_eq (h : Prelude settings behalf msgs tx front) : callsFor behalf.sender front = front := by
  refine List.filter_eq_self.2 ?_
  cases h
  simp only [List.forall_mem_cons]
  exact ⟨decide_eq_true rfl, decide_eq_true rfl, decide_eq_true rfl, decide_eq_true rfl, List.forall_mem_nil _⟩

theorem prelude_unsignedTx {account : Account} {simulation : Simulation} {gasUsed height : Nat}
    {toAccount : Reply Account} {toSimulateEach : Reply Simulation} {toSimulate toLatestBlock : Reply Nat}
    (account_eq : toAccount.outcome = .ok (.ok account))
    (simulation_eq : toSimulateEach.outcome = .ok (.ok simulation))
    (succeeded : ∀ id ∈ batch.msgs.ids, id ∈ simulation.succeeded.map SimMsg.id)
    (gasUsed_eq : toSimulate.outcome = .ok (.ok gasUsed))
    (height_eq : toLatestBlock.outcome = .ok (.ok height)) :
    Prelude settings batch.behalf batch.simMsgs (batch.unsignedTx settings gasPrice account gasUsed height)
      [called batch.behalf (.account batch.msgs.sender) toAccount,
        called batch.behalf (.simulateEach batch.simMsgs account.sequence) toSimulateEach,
        called batch.behalf (.simulate batch.messages account.sequence) toSimulate,
        called batch.behalf .latestBlock toLatestBlock] := by
  refine .answered account_eq simulation_eq (fun msg hmsg => ?_) gasUsed_eq height_eq ?_ rfl rfl rfl
    Settings.timeoutHeight_eq
  · obtain ⟨p, hp, rfl⟩ := List.mem_map.1 hmsg
    exact succeeded p.id (List.mem_map_of_mem hp)
  · exact batch.messages_eq

theorem Signs.exists_prelude (h : Signs settings gasPrice batch es tx bytes) : ∃ front toSign,
    es = front ++ [Dispatch.called batch.behalf (.createAndSign tx batch.signer) toSign] ∧
      Prelude settings batch.behalf batch.simMsgs tx front ∧ toSign.outcome = .ok (.ok bytes) := by
  obtain ⟨account_eq, simulation_eq, succeeded, gasUsed_eq, height_eq, bytes_eq⟩ := h
  exact ⟨[_, _, _, _], _, rfl, prelude_unsignedTx account_eq simulation_eq succeeded gasUsed_eq height_eq, bytes_eq⟩

theorem broadcast_not_mem {reply : Reply BroadcastResponse} (h : ∀ e ∈ es, isBroadcast e = false) :
    called behalf (.broadcast bytes) reply ∉ es := by
  intro hmem
  cases h _ hmem

/-- A course that signs or broadcasts anything has gone through its prelude before. -/
theorem Unsent.cases_of_signature (h : Unsent settings gasPrice batch es r) :
    (∀ e ∈ es, transacts e = false) ∨ ∃ front tx toSign rest,
      es = front ++ called batch.behalf (.createAndSign tx batch.signer) toSign :: rest ∧
        Prelude settings batch.behalf batch.simMsgs tx front ∧ ∀ e ∈ rest, isBroadcast e = false := by
  cases h with
  | noAccount => exact .inl (List.forall_mem_singleton.2 rfl)
  | notSimulated => exact .inl (List.forall_mem_cons.2 ⟨rfl, List.forall_mem_singleton.2 rfl⟩)
  | cancelled _ _ _ cancels =>
    simp only [List.forall_mem_cons]
    refine .inl ⟨rfl, rfl, ?_⟩
    cases cancels with
    | stuck | alone => exact List.forall_mem_singleton.2 rfl
    | both => exact List.forall_mem_cons.2 ⟨rfl, List.forall_mem_singleton.2 rfl⟩
  | notEstimated _ _ _ _ abandons =>
    simp only [List.forall_mem_cons]
    refine .inl ⟨rfl, rfl, rfl, ?_⟩
    cases abandons with
    | crashed => exact List.forall_mem_nil _
    | failed => exact List.forall_mem_singleton.2 rfl
  | noHeight =>
    simp only [List.forall_mem_cons]
    exact .inl ⟨rfl, rfl, rfl, rfl, List.forall_mem_nil _⟩
  | notSigned account_eq simulation_eq succeeded gasUsed_eq height_eq _ abandons =>
    exact .inr ⟨[_, _, _, _], _, _, _, rfl,
      prelude_unsignedTx account_eq simulation_eq succeeded gasUsed_eq height_eq,
      fun e he => (abandons.plain batch.behalf e he).not_isBroadcast⟩

theorem Broadcasts.eq_of_mem {o : Except Crash (Except Error String)} {tx : Bytes}
    {reply : Reply BroadcastResponse} {other : Behalf} (h : Broadcasts behalf tx es o)
    (hmem : called other (.broadcast bytes) reply ∈ es) : bytes = tx := by
  have heq : request? (called other (.broadcast bytes) reply) = some (.broadcast bytes) := rfl
  have hrequest := List.mem_filterMap.2 ⟨_, hmem, heq⟩
  rw [show es.filterMap request? = _ from h.requests_eq, List.mem_singleton] at hrequest
  exact ClientCall.broadcast.inj hrequest

theorem SenderCourse.cases_of_signature (h : SenderCourse settings gasPrice batch es r) :
    (∀ e ∈ es, transacts e = false) ∨ ∃ front tx toSign rest,
      es = front ++ called batch.behalf (.createAndSign tx batch.signer) toSign :: rest ∧
        Prelude settings batch.behalf batch.simMsgs tx front ∧
        ∀ other bytes reply, called other (.broadcast bytes) reply ∈ rest → toSign.outcome = .ok (.ok bytes) := by
  have hsigned {es fs gs : List (Event interface)} {tx : UnsignedTx} {bytes : Bytes}
      {o : Except Crash (Except Error String)} (signs : Signs settings gasPrice batch es tx bytes)
      (broadcasts : Broadcasts batch.behalf bytes fs o) (hgs : ∀ e ∈ gs, isBroadcast e = false) :
      ∃ front tx toSign rest,
        es ++ (fs ++ gs) = front ++ called batch.behalf (.createAndSign tx batch.signer) toSign :: rest ∧
          Prelude settings batch.behalf batch.simMsgs tx front ∧
          ∀ other bytes reply, called other (.broadcast bytes) reply ∈ rest → toSign.outcome = .ok (.ok bytes) := by
    obtain ⟨front, toSign, rfl, hled, hbytes⟩ := signs.exists_prelude
    refine ⟨front, tx, toSign, fs ++ gs, by simp, hled, fun other sent reply hmem => ?_⟩
    rcases List.mem_append.1 hmem with hmem | hmem
    · rw [broadcasts.eq_of_mem hmem, hbytes]
    · exact absurd hmem (broadcast_not_mem hgs)
  cases h with
  | unsent unsent =>
    rcases unsent.cases_of_signature with hnone | ⟨front, tx, toSign, rest, rfl, hled, hrest⟩
    · exact .inl hnone
    · exact .inr ⟨front, tx, toSign, rest, rfl, hled, fun _ _ _ hmem => absurd hmem (broadcast_not_mem hrest)⟩
  | refused signs broadcasts abandons =>
    exact .inr (hsigned signs broadcasts fun e he => (abandons.plain batch.behalf e he).not_isBroadcast)
  | sent signs broadcasts confirms => exact .inr (hsigned signs broadcasts confirms.not_isBroadcast)

/-- A beginning that goes beyond the front has all of the front and what comes right after it. -/
theorem exists_of_append_eq {α : Type} {p : α → Bool} {u v front rest : List α} {a : α}
    (h : u ++ v = front ++ a :: rest) (hfront : ∀ b ∈ front, p b = false) (hbeyond : ∃ b ∈ u, p b = true) :
    ∃ later, u = front ++ a :: later ∧ later <+: rest := by
  obtain ⟨b, hb, hp⟩ := hbeyond
  have hnot {short : List α} (hshort : short <+: front) : b ∉ short := by
    intro hmem
    rw [hfront b (hshort.subset hmem)] at hp
    cases hp
  rcases List.append_eq_append_iff.1 h with ⟨w, rfl, _⟩ | ⟨w, rfl, hw⟩
  · exact absurd hb (hnot (List.prefix_append _ _))
  · cases w with
    | nil =>
      rw [List.append_nil] at hb
      exact absurd hb (hnot (List.prefix_refl _))
    | cons c later =>
      obtain ⟨rfl, rfl⟩ := List.cons.inj hw
      exact ⟨later, rfl, List.prefix_append _ _⟩

theorem HasBegun.signedAsSimulated {rows : List Row} (h : HasBegun settings gasPrice batch u)
    (hconveys : List.Forall₂ Conveys rows batch.simMsgs) (hsome : ∃ e ∈ deeds u, transacts e = true) :
    SignedAsSimulated settings batch.behalf rows (callsFor batch.msgs.sender (deeds u)) := by
  obtain ⟨v, r, hcourse⟩ := h
  rcases hcourse.cases_of_signature with hnone | ⟨front, tx, toSign, rest, heq, hled, hsent⟩
  · obtain ⟨e, he, htransacts⟩ := hsome
    rw [hnone e (List.mem_append_left v he)] at htransacts
    cases htransacts
  obtain ⟨later, hdeeds, hlater⟩ := exists_of_append_eq heq hled.not_transacts hsome
  have hcalls : callsFor batch.msgs.sender (deeds u) = front ++
      called batch.behalf (.createAndSign tx batch.signer) toSign :: callsFor batch.msgs.sender later := by
    rw [hdeeds, callsFor_append]
    congr 1
    · exact hled.callsFor_eq
    · exact List.filter_cons_of_pos (decide_eq_true rfl)
  rw [hcalls]
  exact .signed hconveys hled fun other bytes reply hmem =>
    hsent other bytes reply (hlater.subset (List.mem_of_mem_filter hmem))

end Dispatch

end ReportRelay
