import ReportRelay.Proofs.Dispatch.Selection
import ReportRelay.Proofs.Dispatch.Sights
import ReportRelay.Proofs.Message.Canonical
import ReportRelay.Proofs.Queue.Load

/-!
# Admission agrees with storage

A message that is admitted is written into one new row in its canonical form. It is read from that row as what it
was admitted as, now and ever after, however it was written when it came.
-/

namespace ReportRelay.Dispatch

variable {chainId contractId : String} {envelope : Envelope} {message : Message} {store later : Store} {id : MsgId}

/-- The store has one row more, from which the message is read. -/
structure Admits (chainId contractId : String) (message : Message) (store later : Store) (row : Row) : Prop where
  rows : later.rows = store.rows ++ [row]
  fresh : ∀ old ∈ store.rows, old.id < row.id
  chainId : row.chainId = chainId
  contractId : row.contractId = contractId
  state : row.state = .unstarted
  txHash : row.txHash = none
  decodes : Message.decode row.typeUrl row.raw = .ok message

/-- The message is read from the row with this id. -/
def Holds (store : Store) (id : MsgId) (message : Message) : Prop :=
  ∃ row ∈ store.rows, row.id = id ∧ Message.decode row.typeUrl row.raw = .ok message

/-- Whatever is done to the store, it holds the message, and no batch takes the message for unreadable. -/
def Endures (store : Store) (id : MsgId) (message : Message) : Prop :=
  ∀ {E : Type} (others : Collaborators E) (env : E) (operations : List Operation),
    ∀ sight ∈ sights others env store operations, ∀ s ∈ sight.stores, Holds s id message ∧
      ∀ (chainId : String) (env : E) (command : Command) (settings : Settings) (i : Intake),
        takenIn settings i ⊆ events (World.session chainId others env s [command]).history →
          id ∉ i.undecodable settings

/-- What becomes of a message that is put in, and of the world. -/
def World.enqueue {E : Type} (chainId : String) (others : Collaborators E) (contractId : String)
    (envelope : Envelope) (world : World E) : Except Crash (Except Error MsgId) × World E :=
  (Dispatch.enqueue contractId envelope).outcome.run (World.pass others) (World.answer chainId others) world

/-! ## Putting a message in -/

section
variable {E : Type} (chainId : String) (others : Collaborators E)

theorem run_pass (nanos : Nat) (world : World E) :
    ∃ env, (Dialogue.pass nanos : Run Unit).run (World.pass others) (World.answer chainId others) world =
      (.ok (), ⟨env, world.store, world.history⟩) := by
  unfold Dialogue.pass
  split
  · exact ⟨_, rfl⟩
  · exact ⟨_, rfl⟩

theorem run_turn (world : World E) :
    ∃ env history, turn.run (World.pass others) (World.answer chainId others) world =
      (.ok (), ⟨env, world.store, history⟩) := by
  have hturn := run_pass chainId others (World.answer chainId others .turn world).1
    (World.answer chainId others .turn world).2
  exact hturn.imp fun _ hturn => ⟨_, hturn⟩

/-- A statement may have to wait, but it meets the store as it is. -/
theorem run_execute (statement : Store.Statement) (world : World E) :
    ∃ env history, (execute statement).outcome.run (World.pass others) (World.answer chainId others) world =
      (.ok (world.store.execute chainId statement).1, ⟨env, (world.store.execute chainId statement).2, history⟩) := by
  obtain ⟨env, history, hturn⟩ := run_turn chainId others world
  have hrun := Dialogue.run_bind_of_ok (congrArg Prod.fst hturn) fun _ => ask (.store statement)
  rw [hturn] at hrun
  exact ⟨env, _, hrun⟩

theorem enqueue_of_unreadable (contractId : String) {e : Error} (h : Message.ofEnvelope envelope = .error e)
    (world : World E) : world.enqueue chainId others contractId envelope = (.ok (.error e), world) := by
  unfold World.enqueue Dispatch.enqueue
  rw [h]
  rfl

theorem enqueue_of_readable (contractId : String) (h : Message.ofEnvelope envelope = .ok message) {world : World E}
    (hworld : world.store.Lawful) :
    ∃ row later, world.enqueue chainId others contractId envelope = (.ok (.ok row.id), later) ∧
      Admits chainId contractId message world.store later.store row ∧ later.store.Lawful := by
  obtain ⟨now, asked, hstore, hrun⟩ : ∃ now, ∃ asked : World E, asked.store = world.store ∧
      world.enqueue chainId others contractId envelope =
        (execute (.insert contractId message.typeUrl message.write now)).outcome.run (World.pass others)
          (World.answer chainId others) asked := by
    unfold World.enqueue Dispatch.enqueue
    rw [h]
    exact ⟨_, (World.answer chainId others .now world).2, rfl, rfl⟩
  obtain ⟨env, history, hexecute⟩ :=
    run_execute chainId others (.insert contractId message.typeUrl message.write now) asked
  have hlawful := (Store.evolves_insert hworld chainId contractId message.typeUrl message.write now).lawful
  rw [hstore, Store.execute] at hexecute
  unfold Store.insert at hexecute hlawful
  rw [if_pos hworld.migrated] at hexecute hlawful
  refine ⟨⟨world.store.lastId + 1, chainId, contractId, .unstarted, message.typeUrl, message.write, none, now⟩,
    ⟨env, _, history⟩, hrun.trans hexecute, ?_, hlawful⟩
  exact ⟨rfl, fun old hold => Int.lt_add_one_of_le (hworld.bounded old hold), rfl, rfl, rfl, rfl,
    Message.decode_write_of_decode h⟩

end

/-! ## Ever after -/

theorem Admits.holds {row : Row} (h : Admits chainId contractId message store later row) :
    Holds later row.id message :=
  ⟨row, by rw [h.rows]; exact List.mem_append_right _ (List.mem_singleton_self row), rfl, h.decodes⟩

theorem Holds.evolves (h : Holds store id message) (hevolves : store.Evolves later) : Holds later id message := by
  obtain ⟨row, hrow, rfl, hdecode⟩ := h
  obtain ⟨row', hrow', hkept⟩ := hevolves.kept row hrow
  exact ⟨row', hrow', hkept.id, by rw [hkept.typeUrl, hkept.raw, hdecode]⟩

theorem Holds.find (h : Holds store id message) (hstore : store.Lawful) {row : Row} (hrow : row ∈ store.rows)
    (hid : row.id = id) (settings : Settings) (now : Int) :
    find settings now row = .expired id ∨ find settings now row = .pending ⟨row, message⟩ := by
  obtain ⟨old, hold, rfl, hdecode⟩ := h
  obtain rfl := hstore.eq_of_id_eq hrow hold hid
  exact find_of_decode settings now hdecode

/-- What is loaded in a history is in the store at that time. -/
theorem exists_evolved_of_loading {moments : List Moment} {state : MsgState} {limit : Int} {rows : List Row}
    (hstore : store.Lawful) (h : Recorded chainId store moments later)
    (hload : loading state limit (.ok rows) ∈ events moments) : ∃ s, store.Evolves s ∧ ∀ row ∈ rows, row ∈ s.rows := by
  obtain ⟨moment, hmoment, hevent⟩ := List.mem_map.1 hload
  obtain ⟨before, after, rfl⟩ := List.append_of_mem hmoment
  obtain ⟨⟨s, hbefore, hmeets⟩, _⟩ := h.split
  rw [hevent] at hmeets
  obtain ⟨hanswer, _⟩ := loaded_of_passes (passes_singleton.2 hmeets)
  exact ⟨s, evolves_of_passes hstore hbefore, fun row hrow => (Store.mem_of_load hanswer hrow).1⟩

theorem Holds.not_mem_undecodable {E : Type} {others : Collaborators E} {env : E} {commands : List Command}
    {settings : Settings} {i : Intake} (h : Holds store id message) (hstore : store.Lawful)
    (hi : takenIn settings i ⊆ events (World.session chainId others env store commands).history) :
    id ∉ i.undecodable settings := by
  have hrecorded := (happens_session chainId others env store commands).1.recorded
  have hleftover := exists_evolved_of_loading hstore hrecorded (hi List.mem_cons_self)
  have hunstarted := exists_evolved_of_loading hstore hrecorded (hi (List.mem_cons_of_mem _ List.mem_cons_self))
  intro hid
  obtain ⟨row, hrow, e, hfind⟩ := Intake.mem_undecodable.1 hid
  obtain ⟨s, hevolves, hmem⟩ : ∃ s, store.Evolves s ∧ row ∈ s.rows := by
    rcases List.mem_append.1 hrow with hrow | hrow
    · exact hleftover.imp fun s hs => ⟨hs.1, hs.2 row hrow⟩
    · exact hunstarted.imp fun s hs => ⟨hs.1, hs.2 row hrow⟩
  rcases (h.evolves hevolves).find hevolves.lawful hmem (id_of_undecodable hfind) settings i.now with
    hexpired | hpending
  · cases hexpired.symm.trans hfind
  · cases hpending.symm.trans hfind

theorem Holds.endures (h : Holds store id message) (hstore : store.Lawful) : Endures store id message := by
  intro E others env operations sight hsight s hs
  obtain ⟨_, htrail⟩ := exists_trail_sights others env hstore operations
  have hevolves := htrail.evolves_of_mem hsight s hs
  have hholds := h.evolves hevolves
  exact ⟨hholds, fun _ _ _ _ _ hi => hholds.not_mem_undecodable hevolves.lawful hi⟩

/-- A message is admitted exactly if it can be read. Then it is the only new row of the store, and it is read from
there ever after; otherwise nothing happens. What the relay itself writes for an address is read back, since no message
in a memory of 64 bits is too long for its own lengths. -/
theorem admitted_as_read {E : Type} (chainId : String) (others : Collaborators E) (contractId : String)
    (envelope : Envelope) (world : World E) (h : world.store.Lawful) :
    (match Message.ofEnvelope envelope with
      | .ok message => ∃ row later, world.enqueue chainId others contractId envelope = (.ok (.ok row.id), later) ∧
          Admits chainId contractId message world.store later.store row ∧ Endures later.store row.id message
      | .error e => world.enqueue chainId others contractId envelope = (.ok (.error e), world)) ∧
    ∀ message : Message,
      (Message.ofEnvelope message.toEnvelope = .ok message ↔ message.Addressed ∧ message.Sized) ∧
        (message.write.length < 2 ^ 64 → message.Sized) := by
  refine ⟨?_, fun message => ⟨Message.ofEnvelope_toEnvelope_iff, Message.sized_of_length⟩⟩
  split
  next message hread =>
    obtain ⟨row, later, hrun, hadmits, hlawful⟩ := enqueue_of_readable chainId others contractId hread h
    exact ⟨row, later, hrun, hadmits, hadmits.holds.endures hlawful⟩
  next e hread => exact enqueue_of_unreadable chainId others contractId hread world

/-- A payment by the shortest address, after an unknown field, with its fields out of order and one of them twice. -/
def disordered : Envelope :=
  ⟨Message.sendUrl, [72, 1, 18, 1, 98, 10, 1, 120, 10, 8, 97, 49, 50, 117, 101, 108, 53, 108]⟩

theorem admitted_as_read_disordered :
    disordered.value ≠ (Message.send ⟨"a12uel5l", "b", []⟩).write ∧
    emptyStore.Lawful ∧
    (∃ row later, World.enqueue "chain" obliging "contract" disordered ⟨0, emptyStore, []⟩ = (.ok (.ok row.id), later) ∧
      Admits "chain" "contract" (.send ⟨"a12uel5l", "b", []⟩) emptyStore later.store row ∧
      Endures later.store row.id (.send ⟨"a12uel5l", "b", []⟩)) ∧
    ∀ message : Message,
      (Message.ofEnvelope message.toEnvelope = .ok message ↔ message.Addressed ∧ message.Sized) ∧
        (message.write.length < 2 ^ 64 → message.Sized) := by
  have hread : Message.ofEnvelope disordered = .ok (.send ⟨"a12uel5l", "b", []⟩) := by decide +kernel
  obtain ⟨hadmitted, hback⟩ :=
    admitted_as_read "chain" obliging "contract" disordered ⟨0, emptyStore, []⟩ lawful_emptyStore
  rw [hread] at hadmitted
  exact ⟨by decide +kernel, lawful_emptyStore, hadmitted, hback⟩

end ReportRelay.Dispatch
