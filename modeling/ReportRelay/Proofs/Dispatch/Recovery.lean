import Mathlib.Algebra.Order.Floor.Div
import ReportRelay.Proofs.Dispatch.Clearance

/-!
# Recovery of messages in flight

Messages that a dispatcher left broadcasted are taken up by sweeps, the oldest first. A sweep looks up their
transactions as often as its settings allow and confirms or errors each message by the first answer for its sender and
its hash. As many sweeps as the messages fill leave none of them broadcasted.
-/

namespace ReportRelay

theorem Row.Evolves.eq {row row' : Row} (h : row.Evolves row') :
    row' = { row with state := row'.state, txHash := row'.txHash } := by
  obtain ⟨hid, hchain, hcontract, htype, hraw, hcreated, _, _⟩ := h
  cases row'
  cases hid
  cases hchain
  cases hcontract
  cases htype
  cases hraw
  cases hcreated
  rfl

namespace Store

variable {store later : Store}

theorem Lawful.table_eq (h : store.Lawful) : store.table = .present := by
  have hmigrated := h.migrated
  simpa [Store.migrated] using hmigrated

/-- Without new rows, a store is known by what has become of each row. -/
theorem Evolves.eq_map {f : Row → Row} (h : store.Evolves later) (hs : store.Lawful)
    (hlast : later.lastId = store.lastId) (hid : ∀ row, (f row).id = row.id)
    (hrows : ∀ row ∈ store.rows, f row ∈ later.rows) : later = { store with rows := store.rows.map f } := by
  have hmem : ∀ row', row' ∈ later.rows ↔ row' ∈ store.rows.map f := by
    intro row'
    rw [List.mem_map]
    constructor
    · intro hrow'
      obtain ⟨row, hrow, hevolves⟩ := h.known row' hrow' (hlast ▸ h.lawful.bounded row' hrow')
      refine ⟨row, hrow, h.lawful.eq_of_id_eq (hrows row hrow) hrow' ?_⟩
      rw [hid, hevolves.id]
    · rintro ⟨row, hrow, rfl⟩
      exact hrows row hrow
  have hascending : (store.rows.map f).Pairwise (·.id < ·.id) := by
    rw [List.pairwise_map]
    simpa only [hid] using hs.ascending
  have heq := eq_of_ascending h.lawful.ascending hascending hmem
  have htable := h.lawful.table_eq.trans hs.table_eq.symm
  cases later
  cases hlast
  cases htable
  cases heq
  rfl

end Store

namespace Dispatch

variable {chainId : String} {s s' : Store} {settings : Settings} {t u v es : List (Event interface)} {row : Row}
  {sender txHash : String} {behalf : Behalf} {e : Event interface}

/-! ## Lookups of a transaction -/

/-- The reply, if the event is a lookup of this transaction for this sender. -/
def replyTo? (sender txHash : String) : Event interface → Option (Reply TxResponse)
  | ⟨.client behalf (.lookUp hash), reply⟩ => if behalf.sender = sender ∧ hash = txHash then some reply else none
  | _ => none

def repliesTo (sender txHash : String) (t : List (Event interface)) : List (Reply TxResponse) :=
  t.filterMap (replyTo? sender txHash)

/-- The replies to attempts that end with the first answer, and without one when they have run out. -/
structure Attempted (attempts : Nat) (replies : List (Reply TxResponse)) : Prop where
  bounded : replies.length ≤ attempts
  stops : ∀ reply ∈ replies.dropLast, reply.answer? = none
  exhausted : (∀ reply ∈ replies, reply.answer? = none) → replies.length = attempts

theorem Tried.attempted {more : Nat} {replies : List (Reply TxResponse)} {r : Except Crash (Except Error TxResponse)}
    (h : Tried more replies r) (hcalm : ∀ reply ∈ replies, ∀ c, reply.outcome ≠ .error c) :
    Attempted (more + 1) replies := by
  induction h with
  | @last more reply r outcome final =>
    refine ⟨by simp, List.forall_mem_nil _, fun hnone => ?_⟩
    have hreply := hnone reply List.mem_cons_self
    match r, outcome, final with
    | .error c, outcome, _ => exact absurd outcome (hcalm reply List.mem_cons_self c)
    | .ok (.ok response), outcome, _ =>
      rw [Reply.answer?_of_ok outcome] at hreply
      cases hreply
    | .ok (.error e), _, final =>
      rcases final with rfl | hne
      · rfl
      · exact absurd rfl (hne e)
  | @again more reply e replies r outcome rest ih =>
    have hrest := ih fun reply hreply => hcalm reply (List.mem_cons_of_mem _ hreply)
    have hfirst : reply.answer? = none := by rw [Reply.answer?, outcome]
    refine ⟨Nat.succ_le_succ hrest.bounded, ?_, fun hnone => ?_⟩
    · cases replies with
      | nil => exact List.forall_mem_nil _
      | cons second replies => exact List.forall_mem_cons.2 ⟨hfirst, hrest.stops⟩
    · exact congrArg (· + 1) (hrest.exhausted (List.forall_mem_cons.1 hnone).2)

/-- Only the last of the replies may be an answer, so it is the first one. -/
theorem Attempted.exists_answer_iff {attempts : Nat} {replies : List (Reply TxResponse)}
    (h : Attempted attempts replies) {p : TxResponse → Bool} :
    (replies.findSome? Reply.answer?).any p = true ↔ ∃ reply ∈ replies, reply.answer?.any p = true := by
  obtain rfl | ⟨front, last, rfl⟩ := List.eq_nil_or_concat' replies
  · simp
  have hfront : ∀ reply ∈ front, reply.answer? = none := by simpa using h.stops
  have hnone : front.findSome? Reply.answer? = none := List.findSome?_eq_none_iff.2 hfront
  rw [List.findSome?_append, hnone, Option.none_or, List.findSome?_singleton]
  constructor
  · intro hlast
    exact ⟨last, List.mem_append_right _ List.mem_cons_self, hlast⟩
  · rintro ⟨reply, hreply, hany⟩
    rcases List.mem_append.1 hreply with hreply | hreply
    · rw [hfront reply hreply] at hany
      cases hany
    · rwa [← List.mem_singleton.1 hreply]

theorem repliesTo_deeds : repliesTo sender txHash (deeds t) = repliesTo sender txHash t := by
  induction t with
  | nil => rfl
  | cons e t ih =>
    obtain ⟨question, a⟩ := e
    cases question with
    | log | turn => exact ih
    | client | signer | prices | now | store | storeAll =>
      simp only [repliesTo, deeds, List.filter_cons, isDeed, if_true, List.filterMap_cons] at ih ⊢
      rw [ih]

theorem repliesTo_interleave (h : Interleave u v t) (hv : ∀ e ∈ v, replyTo? sender txHash e = none) :
    repliesTo sender txHash t = repliesTo sender txHash u := by
  have hreplies := h.filterMap (replyTo? sender txHash)
  rw [List.filterMap_eq_nil_iff.2 hv] at hreplies
  exact hreplies.eq_left.symm

theorem repliesTo_lookUps {replies : List (Reply TxResponse)} :
    repliesTo behalf.sender txHash (lookUps behalf txHash replies) = replies := by
  induction replies with
  | nil => rfl
  | cons reply replies ih =>
    have hfirst : replyTo? behalf.sender txHash (called behalf (.lookUp txHash) reply) = some reply :=
      if_pos ⟨rfl, rfl⟩
    exact (List.filterMap_cons_some hfirst).trans (congrArg (reply :: ·) ih)

theorem Concludes.replyTo?_eq_none {ids : List MsgId} {found : Except Crash (Except Error TxResponse)}
    {r : Except Crash (Except Error Unit)} (h : Concludes ids found es r) :
    ∀ e ∈ es, replyTo? sender txHash e = none := by
  cases h with
  | crashed => exact List.forall_mem_nil _
  | confirmed | failed | unknown => exact List.forall_mem_singleton.2 rfl

theorem Concludes.confirms_eq_false {ids : List MsgId} {found : Except Crash (Except Error TxResponse)}
    {r : Except Crash (Except Error Unit)} (h : Concludes ids found es r) : ∀ e ∈ es, confirms e = false := by
  cases h with
  | crashed => exact List.forall_mem_nil _
  | confirmed | failed | unknown => exact List.forall_mem_singleton.2 rfl

theorem ConfirmEvent.replyTo?_eq_none {tx : String × Behalf} (h : ConfirmEvent settings tx e)
    (hne : ¬(tx.2.sender = sender ∧ tx.1 = txHash)) : replyTo? sender txHash e = none := by
  obtain ⟨_, _, ⟨_, hconcludes⟩, he⟩ := h
  rcases List.mem_append.1 he with he | he
  · obtain ⟨reply, _, rfl⟩ := List.mem_map.1 he
    exact if_neg hne
  · exact hconcludes.replyTo?_eq_none e he

/-- A calm confirmation makes its attempts, and confirms by the first answer. -/
theorem ConfirmCourse.attempted {r : Except Crash (Except Error Unit)}
    (h : ConfirmCourse settings behalf txHash es r) (hcalm : ∀ e ∈ es, CalmEvent e) :
    Attempted settings.confirmRetry.attempts (repliesTo behalf.sender txHash es) ∧
      ((∃ e ∈ es, confirms e = true) ↔
        ((repliesTo behalf.sender txHash es).findSome? Reply.answer?).any (fun response => response.code = 0) =
          true) := by
  obtain @⟨replies, found, fs, _, htried, hconcludes⟩ := h
  have hreplies : repliesTo behalf.sender txHash (lookUps behalf txHash replies ++ fs) = replies := by
    have hnone : repliesTo behalf.sender txHash fs = [] :=
      List.filterMap_eq_nil_iff.2 hconcludes.replyTo?_eq_none
    rw [repliesTo, List.filterMap_append]
    exact (congrArg₂ (· ++ ·) repliesTo_lookUps hnone).trans (List.append_nil _)
  have hattempted := htried.attempted fun reply hreply =>
    hcalm (called behalf (.lookUp txHash) reply) (List.mem_append_left _ (List.mem_map_of_mem hreply))
  rw [show settings.confirmRetry.attempts - 1 + 1 = settings.confirmRetry.attempts by
    unfold RetryPolicy.attempts; omega] at hattempted
  rw [hreplies, hattempted.exists_answer_iff]
  refine ⟨hattempted, ?_, ?_⟩
  · rintro ⟨e, he, hconfirms⟩
    rcases List.mem_append.1 he with he | he
    · obtain ⟨reply, hreply, rfl⟩ := List.mem_map.1 he
      exact ⟨reply, hreply, hconfirms⟩
    · rw [hconcludes.confirms_eq_false e he] at hconfirms
      cases hconfirms
  · rintro ⟨reply, hreply, hany⟩
    exact ⟨_, List.mem_append_left _ (List.mem_map_of_mem hreply), hany⟩

/-! ## One sweep -/

/-- The first answer to the lookups of a message's transaction. -/
def answerTo? (t : List (Event interface)) (row : Row) : Option TxResponse :=
  row.txHash.bind fun txHash => (repliesTo (storedSender row) txHash t).findSome? Reply.answer?

/-- What a sweep makes of a message: confirmed where the first answer tells that its transaction has not failed, and
otherwise errored. -/
def concluded (t : List (Event interface)) (row : Row) : Row :=
  if (answerTo? t row).any fun response => response.code = 0 then { row with state := .confirmed }
  else { row with state := .errored, txHash := none }

/-- A sweep takes the oldest broadcasted messages, as many as fit in a batch, and concludes each of them. It makes its
attempts at the transactions of these and at no others. -/
structure Recovers (chainId : String) (settings : Settings) (store : Store) (t : List (Event interface))
    (later : Store) : Prop where
  count : (store.oldest chainId .broadcasted settings.maxMsgsPerBatch).length =
    min settings.maxMsgsPerBatch.toNat (store.inState chainId .broadcasted).length
  older : ∀ row ∈ store.oldest chainId .broadcasted settings.maxMsgsPerBatch,
    ∀ other ∈ store.inState chainId .broadcasted,
      other ∉ store.oldest chainId .broadcasted settings.maxMsgsPerBatch → row.id < other.id
  rows : later = { store with
    rows := store.rows.map fun row =>
      if row ∈ store.oldest chainId .broadcasted settings.maxMsgsPerBatch then concluded t row else row }
  attempted : ∀ row ∈ store.oldest chainId .broadcasted settings.maxMsgsPerBatch, ∀ txHash, row.txHash = some txHash →
    Attempted (max 1 settings.confirmRetry.maxAttempts) (repliesTo (storedSender row) txHash t)
  untried : ∀ sender txHash, (∀ row ∈ store.oldest chainId .broadcasted settings.maxMsgsPerBatch,
    ¬(storedSender row = sender ∧ row.txHash = some txHash)) → repliesTo sender txHash t = []

variable {rows : List Row} {tx other : String × Behalf} {sender' : String}

theorem eq_of_same_hash (htx : tx ∈ transactionsOf rows sender) (hother : other ∈ transactionsOf rows sender')
    (hsender : other.2.sender = tx.2.sender) (hhash : other.1 = tx.1) : other = tx := by
  obtain ⟨txHash, _, rfl⟩ := List.mem_map.1 htx
  obtain ⟨txHash', _, rfl⟩ := List.mem_map.1 hother
  cases hsender
  cases hhash
  rfl

theorem exists_row_of_transactionsOf (htx : tx ∈ transactionsOf rows sender) :
    ∃ row ∈ rows, storedSender row = tx.2.sender ∧ row.txHash = some tx.1 := by
  obtain ⟨txHash, hhash, rfl⟩ := List.mem_map.1 htx
  obtain ⟨row, hown, hrowHash⟩ := List.mem_filterMap.1 (List.mem_eraseDups.1 hhash)
  obtain ⟨hrow, hsender⟩ := List.mem_filter.1 hown
  exact ⟨row, hrow, (of_decide_eq_true hsender).2, hrowHash⟩

theorem Sweeps.untried (h : Sweeps settings es) (hpass : Passes chainId s es s')
    (hnone : ∀ row ∈ s.oldest chainId .broadcasted settings.maxMsgsPerBatch,
      ¬(storedSender row = sender ∧ row.txHash = some txHash)) : repliesTo sender txHash es = [] := by
  cases h with
  | unloaded => rfl
  | @swept rows w us merged courses =>
    obtain ⟨hload, _⟩ := loaded_of_passes hpass
    obtain ⟨_, rfl⟩ := Store.load_ok hload
    refine List.filterMap_eq_nil_iff.2 (List.forall_mem_cons.2 ⟨rfl, fun e he => ?_⟩)
    obtain ⟨_, tx, htx, hevent⟩ := exists_transaction_of_event merged courses e he
    obtain ⟨row, hrow, hsender, hhash⟩ := exists_row_of_transactionsOf htx
    apply hevent.replyTo?_eq_none
    rintro ⟨rfl, rfl⟩
    exact hnone row hrow ⟨hsender, hhash⟩

/-- The attempts at a loaded message's transaction, and the row that the sweep makes of it. -/
theorem Sweeps.concludes (h : Sweeps settings es) (hcalm : ∀ e ∈ es, CalmEvent e) (hs : s.Lawful)
    (hpass : Passes chainId s es s') (hrow : row ∈ s.oldest chainId .broadcasted settings.maxMsgsPerBatch) :
    (∀ txHash, row.txHash = some txHash →
      Attempted settings.confirmRetry.attempts (repliesTo (storedSender row) txHash es)) ∧
    concluded es row ∈ s'.rows := by
  obtain ⟨tx, htx, hhash, hid, u, v, a, hinterleave, hcourse, hothers, hend⟩ :=
    h.exists_confirmation hcalm hs hpass hrow
  have hsender := sender_of_mem_transactionsOf htx
  have hreplies : repliesTo (storedSender row) tx.1 es = repliesTo tx.2.sender tx.1 u := by
    rw [hsender]
    refine repliesTo_interleave hinterleave fun e he => ?_
    rcases hothers e he with ⟨_, rfl⟩ | ⟨_, other, hother, hne, hevent⟩
    · rfl
    · apply hevent.replyTo?_eq_none
      rintro ⟨hsame, hsameHash⟩
      exact hne (eq_of_same_hash htx hother (hsame.trans hsender.symm) hsameHash)
  obtain ⟨hattempted, hconfirms⟩ := hcourse.attempted fun e he => hcalm e (hinterleave.sublist_left.subset he)
  rw [← hreplies] at hattempted hconfirms
  refine ⟨fun txHash htxHash => ?_, ?_⟩
  · cases hhash.symm.trans htxHash
    exact hattempted
  · have hanswer : answerTo? es row = (repliesTo (storedSender row) tx.1 es).findSome? Reply.answer? := by
      rw [answerTo?, hhash, Option.bind_some]
    have hevolves := evolves_of_passes hs hpass
    have hmem := (Store.mem_inState.1 (Store.mem_inState_of_oldest hrow)).1
    rw [concluded, hanswer]
    rcases hend with ⟨hconfirmed, hfound⟩ | ⟨herrored, hnone⟩
    · obtain ⟨row', hrow', _, hrowId, hstate, hrowHash⟩ := hconfirmed row.id hid
      have heq := (hevolves.of_id_eq hmem hrow' hrowId).eq
      rw [if_pos (hconfirms.1 hfound)]
      rw [hstate, hrowHash, ← hhash] at heq
      rwa [heq] at hrow'
    · obtain ⟨row', hrow', _, hrowId, hstate, hrowHash⟩ := herrored row.id hid
      have heq := (hevolves.of_id_eq hmem hrow' hrowId).eq
      rw [if_neg fun hfound => ?_]
      · rw [hstate, hrowHash] at heq
        rwa [heq] at hrow'
      · obtain ⟨e, he, htrue⟩ := hconfirms.2 hfound
        rw [hnone e he] at htrue
        cases htrue

theorem id_concluded : (concluded t row).id = row.id := by
  unfold concluded
  split <;> rfl

theorem Sweeps.recovers (h : Sweeps settings es) (hcalm : ∀ e ∈ es, CalmEvent e) (hs : s.Lawful)
    (hpass : Passes chainId s es s') : Recovers chainId settings s es s' := by
  have hclears := h.clears hcalm hs hpass
  refine ⟨List.length_take, ?_, ?_, fun row hrow txHash hhash => ?_,
    fun sender txHash hnone => h.untried hpass hnone⟩
  · intro row hrow other hother hnot
    obtain ⟨hmem, hchain, hstate⟩ := Store.mem_inState.1 hother
    exact (Store.full_of_not_mem hs (Store.load_eq_of_mem hs hrow) hmem hchain hstate hnot).2 row hrow
  · refine hclears.evolves.eq_map hs hclears.lastId (fun row => ?_) fun row hrow => ?_
    · split
      · exact id_concluded
      · rfl
    · split
      case isTrue hloaded => exact (h.concludes hcalm hs hpass hloaded).2
      case isFalse hnot => exact h.keeps hs hpass hrow hnot
  · rw [Nat.max_comm]
    exact (h.concludes hcalm hs hpass hrow).1 txHash hhash

theorem concluded_deeds : concluded (deeds t) row = concluded t row := by
  have hanswer : answerTo? (deeds t) row = answerTo? t row := by simp only [answerTo?, repliesTo_deeds]
  rw [concluded, concluded, hanswer]

theorem recovers_of_takes {r : Except Crash Unit}
    (htakes : (Command.confirmAnyUnconfirmed settings).dialogue.Takes t r) (hcalm : ∀ e ∈ t, CalmEvent e)
    (hs : s.Lawful) (hpass : Passes chainId s t s') :
    Recovers chainId settings s t s' ∧
      s'.inState chainId .broadcasted = (s.inState chainId .broadcasted).drop settings.maxMsgsPerBatch.toNat := by
  obtain ⟨o, ho⟩ := takes_outcome htakes
  have hsweeps := takes_confirmAnyUnconfirmed_calm ho hcalm
  have hcalmDeeds : ∀ e ∈ deeds t, CalmEvent e := fun e he => hcalm e (List.mem_of_mem_filter he)
  rw [← passes_deeds] at hpass
  obtain ⟨hcount, holder, hrows, hattempted, huntried⟩ := hsweeps.recovers hcalmDeeds hs hpass
  simp only [concluded_deeds, repliesTo_deeds] at hrows hattempted huntried
  exact ⟨⟨hcount, holder, hrows, hattempted, huntried⟩, (hsweeps.clears hcalmDeeds hs hpass).inState_eq_drop hs rfl⟩

/-! ## Sweep after sweep -/

section
variable {E : Type} (others : Collaborators E) (calm : others.Calm) (chainId : String)
include calm

theorem inState_of_sweeps (settings : Settings) (sweeps : Nat) (world : World E) (hs : world.store.Lawful) :
    ((List.replicate sweeps (.confirmAnyUnconfirmed settings)).foldl (World.perform chainId others)
        world).store.inState chainId .broadcasted =
      (world.store.inState chainId .broadcasted).drop (sweeps * settings.maxMsgsPerBatch.toNat) := by
  induction sweeps generalizing world with
  | zero => simp
  | succ sweeps ih =>
    obtain ⟨ms, _, htakes, hrecorded, hcalm⟩ :=
      exists_takes_of_run chainId others (Command.confirmAnyUnconfirmed settings).dialogue world
    have hcalmEvents : ∀ e ∈ events ms, CalmEvent e := List.forall_mem_map.2 (hcalm calm)
    have hlawful : (world.perform chainId others (.confirmAnyUnconfirmed settings)).store.Lawful :=
      (evolves_of_passes hs hrecorded.passes).lawful
    have hleft : (world.perform chainId others (.confirmAnyUnconfirmed settings)).store.inState chainId .broadcasted =
        (world.store.inState chainId .broadcasted).drop settings.maxMsgsPerBatch.toNat :=
      (recovers_of_takes htakes hcalmEvents hs hrecorded.passes).2
    rw [List.replicate_succ, List.foldl_cons, ih _ hlawful, hleft, List.drop_drop, Nat.succ_mul, Nat.add_comm]

/-- Whatever the chain says of their transactions, a sweep concludes the oldest messages in flight, as many as fit in a
batch, each by the first answer of its attempts, and nothing else; as many sweeps as they fill leave none in flight. -/
theorem recovered_by_sweeps (env : E) (store : Store) (hs : store.Lawful) (settings : Settings)
    (hlimit : 1 ≤ settings.maxMsgsPerBatch) :
    Recovers chainId settings store
      (events (World.session chainId others env store [.confirmAnyUnconfirmed settings]).history)
      (World.session chainId others env store [.confirmAnyUnconfirmed settings]).store ∧
    (∀ sweeps, (World.session chainId others env store
        (List.replicate sweeps (.confirmAnyUnconfirmed settings))).store.inState chainId .broadcasted =
      (store.inState chainId .broadcasted).drop (sweeps * settings.maxMsgsPerBatch.toNat)) ∧
    (World.session chainId others env store
        (List.replicate ((store.inState chainId .broadcasted).length ⌈/⌉ settings.maxMsgsPerBatch.toNat)
          (.confirmAnyUnconfirmed settings))).store.inState chainId .broadcasted = [] := by
  have hsweeps := fun sweeps => inState_of_sweeps others calm chainId settings sweeps ⟨env, store, []⟩ hs
  refine ⟨?_, hsweeps, (hsweeps _).trans (List.drop_eq_nil_of_le ?_)⟩
  · obtain ⟨⟨r, htakes⟩, hrecorded, _⟩ := course_of_command chainId others env store (.confirmAnyUnconfirmed settings)
    have hcalm := calmEvents_of_command chainId calm env store (.confirmAnyUnconfirmed settings)
    exact (recovers_of_takes htakes hcalm hs hrecorded.passes).1
  · have hroom : 0 < settings.maxMsgsPerBatch.toNat := by omega
    rw [Nat.mul_comm]
    exact le_smul_ceilDiv hroom

end

/-- Lookups get the given results one after another and fail when there are none left. -/
def telling : Collaborators (List (Except Error TxResponse)) where
  client _ call results :=
    match call, results with
    | .lookUp _, result :: results => (⟨0, .ok result⟩, results)
    | _, results => (.error .missingTxHash, results)
  signer _ results := (.error .missingTxHash, results)
  prices results := (.error .missingTxHash, results)
  now results := (0, results)
  turn results := (0, results)
  pass _ results := results

theorem calm_telling : telling.Calm := by
  intro behalf call results c
  cases call <;> cases results <;> exact nofun

/-- Two attempts at each transaction, and room for two messages. -/
def twiceTried : Settings :=
  { limitedSettings 2 with confirmRetry := ⟨2, 0, .fixed⟩ }

/-- Three messages in flight, the first two in one transaction; of the second, the sender cannot be told any more. -/
def stranded : Store where
  table := .present
  rows := [⟨1, "chain", "contract", .broadcasted, payment.typeUrl, payment.value, some "first", 0⟩,
    ⟨2, "chain", "contract", .broadcasted, "unknown", [], some "first", 0⟩,
    ⟨3, "chain", "contract", .broadcasted, payment.typeUrl, payment.value, some "second", 0⟩]
  lastId := 3

theorem lawful_stranded : stranded.Lawful :=
  ⟨rfl, by decide, by decide, by decide⟩

/-- A failed lookup, a transaction that was executed, and one that was not. -/
def lookUpResults : List (Except Error TxResponse) :=
  [.error .missingTxHash, .ok ⟨"first", 1, 0, "", []⟩, .ok ⟨"first", 1, 5, "", []⟩]

/-- The second attempt confirms the message without a sender, the answer for the other sender errors the first message,
and the third one has to wait for a second sweep. -/
theorem recovered_by_sweeps_of_stranded :
    (World.session "chain" telling lookUpResults stranded [.confirmAnyUnconfirmed twiceTried]).store.rows.map
        (fun row => (row.state, row.txHash)) =
      [(.errored, none), (.confirmed, some "first"), (.broadcasted, some "second")] ∧
    Recovers "chain" twiceTried stranded
      (events (World.session "chain" telling lookUpResults stranded [.confirmAnyUnconfirmed twiceTried]).history)
      (World.session "chain" telling lookUpResults stranded [.confirmAnyUnconfirmed twiceTried]).store ∧
    (World.session "chain" telling lookUpResults stranded
      (List.replicate 2 (.confirmAnyUnconfirmed twiceTried))).store.inState "chain" .broadcasted = [] := by
  obtain ⟨hfirst, hsweeps, _⟩ :=
    recovered_by_sweeps telling calm_telling "chain" lookUpResults stranded lawful_stranded twiceTried (by decide)
  exact ⟨by decide +kernel, hfirst, (hsweeps 2).trans (by decide +kernel)⟩

end Dispatch

end ReportRelay
