import ReportRelay.Proofs.Dispatch.CommandCourse
import ReportRelay.Proofs.Dispatch.Selection

/-!
# Grounds for what is recorded

A dispatcher records a broadcast only after the chain has accepted a transaction with the message, and a
confirmation only after that transaction has been found. What an event must follow is checked along its course; a
course among others still has all its events after their grounds.
-/

namespace ReportRelay.Dispatch

open scoped List

variable {t u v : List (Event interface)} {settings : Settings} {gasPrice : DecCoin} {m : Makeup}
  {batch : SenderBatch} {txHash : String} {id : MsgId} {ids : List MsgId} {message : Message}

/-- The client signs a transaction with a message, and the chain accepts it under a hash. -/
inductive Announces (txHash : String) (id : MsgId) (message : Message) :
    Event interface → Event interface → Prop
  | announced {behalf : Behalf} {tx : UnsignedTx} {signer : Signer} {bytes : Bytes}
    {toSign : Reply Bytes} {toBroadcast : Reply BroadcastResponse} {response : BroadcastResponse}
    (own : id ∈ behalf.ids) (contains : message ∈ tx.messages)
    (signed : toSign.outcome = .ok (.ok bytes)) (answered : toBroadcast.outcome = .ok (.ok response))
    (accepted : response.code = 0) (hash : response.txHash = txHash) :
    Announces txHash id message (called behalf (.createAndSign tx signer) toSign)
      (called behalf (.broadcast bytes) toBroadcast)

/-- A lookup finds the transaction, which has not failed. -/
inductive Finds (txHash : String) : Event interface → Prop
  | found {behalf : Behalf} {reply : Reply TxResponse} {response : TxResponse}
    (answered : reply.outcome = .ok (.ok response)) (succeeded : response.code = 0) :
    Finds txHash (called behalf (.lookUp txHash) reply)

/-- The event tells that the messages carry the hash: they were just given it, or loaded with it. -/
inductive Records (ids : List MsgId) (txHash : String) : Event interface → Prop
  | given : Records ids txHash (movingAll ids .broadcasted txHash (.ok ()))
  | loaded {limit : Int} {rows : List Row}
    (carried : ∀ id ∈ ids, ∃ row ∈ rows, row.id = id ∧ row.txHash = some txHash) :
    Records ids txHash (loading .broadcasted limit (.ok rows))

def Loaded (u : List (Event interface)) (id : MsgId) (message : Message) : Prop :=
  ∃ state limit rows, loading state limit (.ok rows) ∈ u ∧
    ∃ row ∈ rows, row.id = id ∧ Message.decode row.typeUrl row.raw = .ok message

/-- What must have happened before a record is made. -/
def Justified (u : List (Event interface)) : Event interface → Prop
  | ⟨.storeAll ids state hash, _⟩ => state = .broadcasted ∧ ∃ txHash, hash = some txHash ∧
      ∀ id ∈ ids, ∃ message, Loaded u id message ∧
        ∃ sign broadcast, Announces txHash id message sign broadcast ∧ [sign, broadcast] <+ u
  | ⟨.store (.update ids state _), _⟩ => state ≠ .broadcasted ∧ (state = .confirmed →
      ∃ txHash record lookup, Records ids txHash record ∧ Finds txHash lookup ∧ [record, lookup] <+ u)
  | _ => True

/-- Every event of a course is justified by what came before it. -/
def Grounded (u : List (Event interface)) : List (Event interface) → Prop
  | [] => True
  | e :: t => Justified u e ∧ Grounded (u ++ [e]) t

theorem Loaded.mono (h : Loaded u id message) (huv : u <+ v) : Loaded v id message := by
  obtain ⟨state, limit, rows, hload, hrow⟩ := h
  exact ⟨state, limit, rows, huv.subset hload, hrow⟩

theorem Justified.mono {e : Event interface} (h : Justified u e) (huv : u <+ v) : Justified v e := by
  obtain ⟨question, a⟩ := e
  cases question with
  | storeAll ids state hash =>
    obtain ⟨hstate, txHash, hhash, hall⟩ := h
    refine ⟨hstate, txHash, hhash, fun id hid => ?_⟩
    obtain ⟨message, hloaded, sign, broadcast, hannounces, hsublist⟩ := hall id hid
    exact ⟨message, hloaded.mono huv, sign, broadcast, hannounces, hsublist.trans huv⟩
  | store statement =>
    cases statement with
    | update ids state hash =>
      refine ⟨h.1, fun hstate => ?_⟩
      obtain ⟨txHash, record, lookup, hrecords, hfinds, hsublist⟩ := h.2 hstate
      exact ⟨txHash, record, lookup, hrecords, hfinds, hsublist.trans huv⟩
    | insert | load | find => trivial
  | client | signer | prices | now | turn | log => trivial

theorem Quiet.justified {e : Event interface} (h : Quiet e) : Justified u e := by
  obtain ⟨question, a⟩ := e
  cases question with
  | storeAll => exact h.elim
  | store statement =>
    cases statement with
    | update ids state hash =>
      obtain rfl : state = .errored := h
      exact ⟨nofun, nofun⟩
    | insert | load | find => trivial
  | client | signer | prices | now | turn | log => trivial

namespace Grounded

theorem mono (h : Grounded u t) (huv : u <+ v) : Grounded v t := by
  induction t generalizing u v with
  | nil => trivial
  | cons e t ih => exact ⟨h.1.mono huv, ih h.2 (huv.append (List.Sublist.refl _))⟩

theorem append {w : List (Event interface)} : Grounded u (t ++ w) ↔ Grounded u t ∧ Grounded (u ++ t) w := by
  induction t generalizing u with
  | nil =>
    rw [List.append_nil]
    exact (and_iff_right trivial).symm
  | cons e t ih =>
    rw [List.cons_append, Grounded, Grounded, ih, and_assoc, List.append_assoc]
    rfl

theorem of_forall (h : ∀ e ∈ t, ∀ u, Justified u e) : Grounded u t := by
  induction t generalizing u with
  | nil => trivial
  | cons e t ih => exact ⟨h e List.mem_cons_self u, ih fun e he => h e (List.mem_cons_of_mem _ he)⟩

theorem of_quiet (h : ∀ e ∈ t, Quiet e) : Grounded u t :=
  of_forall fun e he _ => (h e he).justified

theorem interleave {x y : List (Event interface)} (h : Interleave x y t) (hx : Grounded u x)
    (hy : Grounded u y) : Grounded u t := by
  induction h generalizing u with
  | nil => trivial
  | left _ ih => exact ⟨hx.1, ih hx.2 (hy.mono (List.sublist_append_left _ _))⟩
  | right _ ih => exact ⟨hy.1, ih (hx.mono (List.sublist_append_left _ _)) hy.2⟩

theorem merge {us : List (List (Event interface))} (h : Merge us t) (hall : ∀ x ∈ us, Grounded u x) :
    Grounded u t := by
  induction us generalizing t with
  | nil =>
    cases h
    trivial
  | cons x us ih =>
    obtain ⟨y, hy, ht⟩ := h
    exact interleave ht (hall x List.mem_cons_self)
      (ih hy fun x hx => hall x (List.mem_cons_of_mem _ hx))

theorem of_deeds (h : Grounded u (deeds t)) : Grounded u t := by
  induction t generalizing u with
  | nil => trivial
  | cons e t ih =>
    unfold deeds at h
    by_cases hdeed : isDeed e = true
    · rw [List.filter_cons_of_pos hdeed] at h
      exact ⟨h.1, ih h.2⟩
    · rw [List.filter_cons_of_neg hdeed] at h
      refine ⟨?_, ih (h.mono (List.sublist_append_left _ _))⟩
      obtain ⟨question, a⟩ := e
      cases question with
      | log | turn => trivial
      | client | signer | prices | now | store | storeAll => exact absurd rfl hdeed

end Grounded

/-! ## Confirmations -/

theorem Tried.exists_found {more : Nat} {replies : List (Reply TxResponse)} {response : TxResponse}
    (h : Tried more replies (.ok (.ok response))) (hcode : response.code = 0) (behalf : Behalf) :
    ∃ lookup ∈ lookUps behalf txHash replies, Finds txHash lookup := by
  obtain ⟨reply, hreply, houtcome⟩ := h.exists_reply
  exact ⟨_, List.mem_map_of_mem hreply, .found houtcome hcode⟩

/-- A confirmation is justified once the messages are known to carry the hash that is looked up. -/
theorem ConfirmCourse.grounded {behalf : Behalf} {r : Except Crash (Except Error Unit)}
    (h : ConfirmCourse settings behalf txHash t r) {record : Event interface} (hrecord : record ∈ u)
    (hrecords : Records behalf.ids txHash record) : Grounded u t := by
  obtain ⟨htried, hconcludes⟩ := h
  refine Grounded.append.2 ⟨.of_forall fun e he v => ?_, ?_⟩
  · obtain ⟨reply, _, rfl⟩ := List.mem_map.1 he
    trivial
  · cases hconcludes with
    | crashed => trivial
    | confirmed code =>
      obtain ⟨lookup, hlookup, hfinds⟩ := htried.exists_found code behalf
      refine ⟨⟨nofun, fun _ => ⟨txHash, record, lookup, hrecords, hfinds, ?_⟩⟩, trivial⟩
      exact (List.singleton_sublist.2 hrecord).append (List.singleton_sublist.2 hlookup)
    | failed | unknown => exact ⟨⟨nofun, nofun⟩, trivial⟩

theorem ConfirmsInOrder.grounded {txs : List (String × Behalf)} (h : ConfirmsInOrder settings txs t)
    {record : Event interface} (hrecord : record ∈ u)
    (hrecords : ∀ tx ∈ txs, Records tx.2.ids tx.1 record) : Grounded u t := by
  induction h generalizing u with
  | done => trivial
  | next first _ ih =>
    exact Grounded.append.2 ⟨first.grounded hrecord (hrecords _ List.mem_cons_self),
      ih (List.mem_append_left _ hrecord) fun tx htx => hrecords tx (List.mem_cons_of_mem _ htx)⟩
  | crashed first => exact first.grounded hrecord (hrecords _ List.mem_cons_self)

theorem SweepCourse.grounded (h : SweepCourse t) : Grounded u t := by
  cases h with
  | quiet quiet => exact .of_quiet quiet
  | @swept settings rows w us merged begun =>
    refine ⟨trivial, .merge merged fun x hx => ?_⟩
    obtain ⟨txs, v, hcarries, hcourse⟩ := begun x hx
    have hrecord := List.mem_append_right u
      (List.mem_singleton_self (loading .broadcasted settings.maxMsgsPerBatch (.ok rows)))
    exact (Grounded.append.1 (hcourse.grounded hrecord fun tx htx => .loaded (hcarries tx htx))).1

/-! ## Batches -/

def Backed (u : List (Event interface)) (batch : SenderBatch) : Prop :=
  ∀ id ∈ batch.msgs.ids, ∃ message ∈ batch.messages, Loaded u id message

theorem Signs.mem {tx : UnsignedTx} {bytes : Bytes} (h : Signs settings gasPrice batch t tx bytes) :
    tx.messages = batch.messages ∧ ∃ toSign : Reply Bytes, toSign.outcome = .ok (.ok bytes) ∧
      Dispatch.called batch.behalf (.createAndSign tx batch.signer) toSign ∈ t := by
  cases h with
  | signed _ _ _ _ _ bytes_eq => exact ⟨rfl, _, bytes_eq, List.getLast_mem (List.cons_ne_nil _ _)⟩

theorem Broadcasts.grounded {tx : UnsignedTx} {bytes : Bytes} {o : Except Crash (Except Error String)}
    (hsigns : Signs settings gasPrice batch t tx bytes) (h : Broadcasts batch.behalf bytes v o)
    (hbacked : Backed u batch) : Grounded (u ++ t) v := by
  obtain ⟨hmessages, toSign, hsigned, hsign⟩ := hsigns.mem
  have hrecord {reply : Reply BroadcastResponse} {response : BroadcastResponse} {a : Except Error Unit}
      (answered : reply.outcome = .ok (.ok response)) (accepted : response.code = 0) :
      Justified (u ++ t ++ [called batch.behalf (.broadcast bytes) reply])
        (movingAll batch.behalf.ids .broadcasted response.txHash a) := by
    refine ⟨rfl, response.txHash, rfl, fun id hid => ?_⟩
    obtain ⟨message, hmem, hloaded⟩ := hbacked id hid
    have hannounces : Announces response.txHash id message
        (called batch.behalf (.createAndSign tx batch.signer) toSign) (called batch.behalf (.broadcast bytes) reply) :=
      .announced hid (hmessages ▸ hmem) hsigned answered accepted rfl
    refine ⟨message, hloaded.mono ?_, _, _, hannounces, ?_⟩
    · rw [List.append_assoc]
      exact List.sublist_append_left _ _
    · have hbefore := (List.singleton_sublist.2 hsign).trans (List.sublist_append_right u t)
      exact hbefore.append (List.Sublist.refl _)
  cases h with
  | failed | rejected => exact ⟨trivial, trivial⟩
  | unrecorded response_eq code => exact ⟨trivial, hrecord response_eq code, trivial⟩
  | recorded response_eq code => exact ⟨trivial, hrecord response_eq code, trivial⟩

theorem Broadcasts.exists_record {bytes : Bytes} (h : Broadcasts batch.behalf bytes v (.ok (.ok txHash))) :
    ∃ record ∈ v, Records batch.behalf.ids txHash record := by
  generalize ho : (.ok (.ok txHash) : Except Crash (Except Error String)) = o at h
  cases h with
  | @failed _ failure => cases failure <;> cases ho
  | rejected | unrecorded => cases ho
  | recorded =>
    cases ho
    exact ⟨_, List.mem_cons_of_mem _ List.mem_cons_self, .given⟩

theorem SenderCourse.grounded {r : Except Crash (Except Error Unit)}
    (h : SenderCourse settings gasPrice batch t r) (hbacked : Backed u batch) : Grounded u t := by
  cases h with
  | unsent unsent => exact .of_quiet fun e he => (unsent.plain e he).quiet
  | refused signs broadcasts abandons =>
    refine Grounded.append.2 ⟨.of_quiet fun e he => (signs.plain e he).quiet, Grounded.append.2 ⟨?_, ?_⟩⟩
    · exact broadcasts.grounded signs hbacked
    · exact .of_quiet fun e he => (abandons.plain batch.behalf e he).quiet
  | sent signs broadcasts confirms =>
    refine Grounded.append.2 ⟨.of_quiet fun e he => (signs.plain e he).quiet, Grounded.append.2 ⟨?_, ?_⟩⟩
    · exact broadcasts.grounded signs hbacked
    · obtain ⟨record, hrecord, hrecords⟩ := broadcasts.exists_record
      exact confirms.grounded (List.mem_append_right _ hrecord) hrecords

theorem Opens.backed (h : Opens settings m t) (hbatch : batch ∈ m.batches) : Backed (u ++ t) batch := by
  obtain ⟨asks⟩ := h
  intro id hid
  obtain ⟨p, hp, rfl⟩ := List.mem_map.1 hid
  refine ⟨p.message, List.mem_map_of_mem hp, ?_⟩
  obtain ⟨hpending, _⟩ := mem_msgs (Makeup.Parted.mem_batches asks.interleave hbatch) hp
  obtain ⟨hrow, _, hdecode⟩ := Intake.row_of_pending hpending
  rcases List.mem_append.1 hrow with hleft | hright
  · exact ⟨_, _, _, List.mem_append_right _ List.mem_cons_self, p.row, hleft, rfl, hdecode⟩
  · exact ⟨_, _, _, List.mem_append_right _ (List.mem_cons_of_mem _ List.mem_cons_self), p.row, hright, rfl,
      hdecode⟩

theorem grounded_starting : Grounded u (moves ids .started) := by
  refine .of_forall fun e he v => ?_
  have hmove : Justified v (moving ids .started (.ok ())) := ⟨nofun, nofun⟩
  exact forall_mem_moves hmove e he

theorem BatchCourse.grounded (h : BatchCourse settings t) : Grounded u t := by
  cases h with
  | quiet quiet => exact .of_quiet quiet
  | opened opens sends =>
    refine Grounded.append.2 ⟨.of_quiet opens.quiet, ?_⟩
    cases sends with
    | stuck => exact ⟨⟨nofun, nofun⟩, trivial⟩
    | unpriced => exact Grounded.append.2 ⟨grounded_starting, trivial, trivial⟩
    | sent merged begun calm =>
      refine Grounded.append.2 ⟨grounded_starting, trivial, .merge merged fun x hx => ?_⟩
      obtain ⟨batch, _, _, _, _, hbatches, _, ⟨v, r, hcourse⟩, _⟩ := exists_split_of_mem begun hx
      have hbacked := opens.backed (u := u) (hbatches ▸ List.mem_append_right _ List.mem_cons_self)
      have hgrounded := (Grounded.append.1 (hcourse.grounded hbacked)).1
      refine hgrounded.mono ?_
      rw [List.append_assoc _ (moves _ _)]
      exact List.sublist_append_left _ _

theorem CommandCourse.grounded (h : CommandCourse t) : Grounded u t := by
  cases h with
  | quiet quiet => exact .of_quiet quiet
  | cycle sweep batch => exact Grounded.append.2 ⟨sweep.grounded, batch.grounded⟩

theorem grounded_of_happens {chainId : String} {start s : Store} {history : List Moment}
    (h : Happens chainId start history s) : Grounded [] (events history) := by
  induction h with
  | nothing => trivial
  | command _ takes _ ih =>
    rw [events, List.map_append]
    exact Grounded.append.2 ⟨ih, (takes_command takes).grounded.of_deeds⟩

end ReportRelay.Dispatch
