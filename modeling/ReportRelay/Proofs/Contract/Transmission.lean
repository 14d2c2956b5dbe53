import ReportRelay.Contract.Transmitter
import ReportRelay.Proofs.Dispatch.Admission
import ReportRelay.Proofs.Json.Value
import ReportRelay.Proofs.Text.Base64

/-!
# The way of a report into the queue

A report is put into base 64, into JSON, into a call of the contract and into a row of the store. From that row the
context, the report and the signatures are read back as they were.
-/

namespace ReportRelay

open Json Dispatch

/-! ## Contexts -/

namespace ReportContext

/-- The context that these bytes are the words of. -/
def ofBytes? (bytes : Bytes) : Option ReportContext :=
  match Bytes32.ofBytes? (bytes.take 32), bytes[63]?, Bytes32.ofBytes? (bytes.drop 64) with
  | some digest, some round, some extraHash =>
    some ⟨⟨digest⟩, UInt32.ofNat (Bytes.toNat ((bytes.drop 59).take 4)), round, extraHash⟩
  | _, _, _ => none

theorem length_bytes (context : ReportContext) : context.bytes.length = 96 := by
  have hdigest : context.digest.bytes.length = 32 := context.digest.word.property
  have hextra : context.extraHash.val.length = 32 := context.extraHash.property
  simp only [bytes, Bytes.zeros, List.length_append, List.length_replicate, Bytes.length_bigEndian,
    List.length_singleton, hdigest, hextra]

theorem ofBytes?_bytes (context : ReportContext) : ofBytes? context.bytes = some context := by
  obtain ⟨⟨digest, hdigest⟩, epoch, round, extraHash, hextra⟩ := context
  have hepoch : (Bytes.bigEndian 4 epoch.toNat).length = 4 := Bytes.length_bigEndian 4 _
  generalize hbytes : bytes ⟨⟨digest, hdigest⟩, epoch, round, extraHash, hextra⟩ = words
  have hwords : words =
      digest ++ (Bytes.zeros 27 ++ (Bytes.bigEndian 4 epoch.toNat ++ (round :: extraHash))) := by
    simp only [← hbytes, bytes, ConfigDigest.bytes, List.append_assoc, List.singleton_append]
  have htake : words.take 32 = digest := by
    rw [hwords, List.take_left' hdigest]
  have hdrop : words.drop 59 = Bytes.bigEndian 4 epoch.toNat ++ (round :: extraHash) := by
    rw [hwords, ← List.append_assoc, List.drop_left' (by simp [hdigest, Bytes.zeros])]
  have htail : words.drop 63 = round :: extraHash := by
    have hsplit : words.drop 63 = (words.drop 59).drop 4 := by rw [List.drop_drop]
    rw [hsplit, hdrop, List.drop_left' hepoch]
  have hround : words[63]? = some round := by
    rw [← List.head?_drop, htail, List.head?_cons]
  have hlast : words.drop 64 = extraHash := by
    have hsplit : words.drop 64 = (words.drop 63).drop 1 := by rw [List.drop_drop]
    rw [hsplit, htail, List.drop_one, List.tail_cons]
  have hnumber : UInt32.ofNat (Bytes.toNat ((words.drop 59).take 4)) = epoch := by
    have hlt : epoch.toNat < 256 ^ 4 := epoch.toNat_lt
    rw [hdrop, List.take_left' hepoch, Bytes.toNat_bigEndian, Nat.mod_eq_of_lt hlt, UInt32.ofNat_toNat]
  unfold ofBytes? Bytes32.ofBytes?
  rw [hnumber, htake, hround, hlast, dif_pos hdigest, dif_pos hextra]

theorem bytes_injective : Function.Injective bytes := by
  intro context other h
  have hread := congrArg ofBytes? h
  rw [ofBytes?_bytes, ofBytes?_bytes] at hread
  exact Option.some.inj hread

end ReportContext

/-! ## Calls -/

namespace Contract

open Json.Reader

/-- What a contract is told in a call that transmits a report. -/
structure Transmittal where
  context : Bytes
  report : Bytes
  signatures : List Bytes
  deriving DecidableEq, Repr

def base64? : Value → Option Bytes
  | .text t => (Base64.decode t).toOption
  | _ => none

/-- Reads the JSON of a call, at whatever place its members are. -/
def Transmittal.read? (call : Bytes) : Option Transmittal := do
  let message ← (Value.read call).toOption
  let transmit ← message.member? "transmit"
  let context ← transmit.member? "report_context"
  let report ← transmit.member? "report"
  let signatures ← transmit.member? "signatures"
  return ⟨← base64? context, ← base64? report, ← (← signatures.list?).mapM base64?⟩

theorem base64?_encode (bytes : Bytes) : base64? (.text (Base64.encode bytes)) = some bytes := by
  rw [base64?, Base64.decode_encode]
  rfl

theorem mapM_base64? (signatures : List OnchainSignature) :
    ((signatures.map fun s => Base64.encode s.signature).map Value.text).mapM base64? =
      some (signatures.map OnchainSignature.signature) := by
  induction signatures with
  | nil => rfl
  | cons s signatures ih =>
    rw [List.map_cons, List.map_cons, List.mapM_cons, base64?_encode, ih]
    rfl

def reportParts (context : ReportContext) (report : Bytes) (signatures : List OnchainSignature) : List Part :=
  [⟨"report_context", Json.quoted (Base64.encode context.bytes), .text (Base64.encode context.bytes)⟩,
   ⟨"report", Json.quoted (Base64.encode report), .text (Base64.encode report)⟩,
   ⟨"signatures", Json.texts (signatures.map fun s => Base64.encode s.signature),
    .list ((signatures.map fun s => Base64.encode s.signature).map .text)⟩]

def transmitPart (context : ReportContext) (report : Bytes) (signatures : List OnchainSignature) : Part :=
  ⟨"transmit", Json.object ((reportParts context report signatures).map fun part => (part.name, part.written)),
    .object ((reportParts context report signatures).map fun part => (part.name, part.value))⟩

/-- The value that the payload is. -/
theorem read_payload (context : ReportContext) (report : Bytes) (signatures : List OnchainSignature) :
    Value.read (.ofText (Transmitter.payload context report signatures)) =
      .ok (.object [("transmit", .object
        [("report_context", .text (Base64.encode context.bytes)),
         ("report", .text (Base64.encode report)),
         ("signatures", .list ((signatures.map fun s => Base64.encode s.signature).map .text))])]) := by
  have hparts : ∀ part ∈ reportParts context report signatures,
      Reads (Reader.value 126) (Bytes.ofText part.written) part.value := by
    simp only [reportParts, List.forall_mem_cons]
    exact ⟨reads_value_text _, reads_value_text _, reads_value_texts _, List.forall_mem_nil _⟩
  have htransmit : ∀ part ∈ [transmitPart context report signatures],
      Reads (Reader.value 127) (Bytes.ofText part.written) part.value :=
    List.forall_mem_singleton.2 (reads_value_object hparts)
  exact (reads_value_object htransmit).read

theorem Transmittal.read?_payload (context : ReportContext) (report : Bytes) (signatures : List OnchainSignature) :
    Transmittal.read? (.ofText (Transmitter.payload context report signatures)) =
      some ⟨context.bytes, report, signatures.map OnchainSignature.signature⟩ := by
  unfold Transmittal.read?
  rw [read_payload]
  simp only [Except.toOption, Value.member?_cons, Value.list?, String.reduceEq, if_true, if_false,
    Option.bind_eq_bind, Option.bind_some, base64?_encode, mapM_base64?]
  rfl

end Contract

/-! ## The queue -/

namespace Dispatch

open Contract

/-- How the dispatcher answers whoever takes it for the queue. -/
def asQueue : (question : QueueQuestion) → Run (Reply MsgId)
  | .enqueue contractId envelope =>
    (Dialogue.guarded (enqueue contractId envelope).outcome).bind fun outcome => .done ⟨0, outcome⟩

/-- What becomes of a report that is transmitted through the dispatcher, and of the world. -/
def World.transmit {E : Type} (chainId : String) (others : Collaborators E) (transmitter : Transmitter)
    (context : ReportContext) (report : Bytes) (signatures : List OnchainSignature) (world : World E) :
    Except Crash (Except Error Unit) × World E :=
  ((transmitter.transmit context report signatures).outcome.through asQueue).run (World.pass others)
    (World.answer chainId others) world

section
variable {E : Type} {chainId : String} {others : Collaborators E} {transmitter : Transmitter}
  {context : ReportContext} {report : Bytes} {signatures : List OnchainSignature} {world later : World E}

theorem run_asQueue {contractId : String} {envelope : Envelope} {outcome : Except Crash (Except Error MsgId)}
    (h : world.enqueue chainId others contractId envelope = (outcome, later)) :
    (asQueue (.enqueue contractId envelope)).run (World.pass others) (World.answer chainId others) world =
      (.ok ⟨0, outcome⟩, later) := by
  have hguarded : (Dialogue.guarded (enqueue contractId envelope).outcome).run (World.pass others)
      (World.answer chainId others) world = (.ok outcome, later) :=
    (Dialogue.run_guarded _ world).trans (congrArg (fun result => (Except.ok result.1, result.2)) h)
  unfold asQueue
  rw [Dialogue.run_bind_of_ok (congrArg Prod.fst hguarded), hguarded]
  rfl

theorem transmit_of_enqueue {outcome : Except Crash (Except Error MsgId)}
    (h : world.enqueue chainId others transmitter.contract
      (transmitter.message context report signatures).toEnvelope = (outcome, later)) :
    world.transmit chainId others transmitter context report signatures =
      (outcome.map (Except.map fun _ => ()), later) := by
  have hanswer := run_asQueue h
  change ((asQueue (.enqueue transmitter.contract _)).bind fun _ => _).run _ _ _ = _
  rw [Dialogue.run_bind_of_ok (congrArg Prod.fst hanswer), hanswer]
  rcases outcome with c | e | id <;> rfl

end

/-- A report from an address comes into the queue as one new row, and is read from there as it was. One from anybody
else is refused, and nothing changes. The context can be told from its bytes. The report may be of any length that fits
in 64 bits. -/
theorem transmitted_as_given {E : Type} (chainId : String) (others : Collaborators E) (transmitter : Transmitter)
    (context : ReportContext) (report : Bytes) (signatures : List OnchainSignature) (world : World E)
    (h : world.store.Lawful) (hsized : (transmitter.message context report signatures).Sized) :
    (match Bech32.decode transmitter.sender with
      | .ok _ => ∃ call row later,
          world.transmit chainId others transmitter context report signatures = (.ok (.ok ()), later) ∧
          Admits chainId transmitter.contract (.execute call) world.store later.store row ∧
          call.sender = transmitter.sender ∧ call.contract = transmitter.contract ∧ call.funds = [] ∧
          Transmittal.read? call.msg =
            some ⟨context.bytes, report, signatures.map OnchainSignature.signature⟩
      | .error _ => ∃ e, world.transmit chainId others transmitter context report signatures = (.ok (.error e), world)) ∧
    context.bytes.length = 96 ∧ ReportContext.ofBytes? context.bytes = some context ∧
      Function.Injective ReportContext.bytes := by
  refine ⟨?_, context.length_bytes, context.ofBytes?_bytes, ReportContext.bytes_injective⟩
  split
  next parts hparts =>
    have haddressed : (transmitter.message context report signatures).Addressed := ⟨parts, hparts⟩
    have hread := Message.ofEnvelope_toEnvelope_iff.2 ⟨haddressed, hsized⟩
    obtain ⟨row, later, hrun, hadmits, _⟩ :=
      enqueue_of_readable chainId others transmitter.contract hread h
    have htransmit := transmit_of_enqueue hrun
    exact ⟨⟨transmitter.sender, transmitter.contract, .ofText (Transmitter.payload context report signatures), []⟩,
      row, later, htransmit, hadmits, rfl, rfl, rfl, Transmittal.read?_payload context report signatures⟩
  next fault hfault =>
    have hsender : ¬(transmitter.message context report signatures).Addressed := by
      rintro ⟨parts, hparts⟩
      cases hfault.symm.trans hparts
    obtain ⟨e, hread⟩ := Message.exists_error_of_not_addressed hsized hsender
    have htransmit := transmit_of_enqueue (enqueue_of_unreadable chainId others transmitter.contract hread world)
    exact ⟨e, htransmit⟩

/-- The shortest address that there is. -/
def terse : Transmitter := ⟨"a12uel5l", "contract"⟩

def nameless : Transmitter := ⟨"nobody", "contract"⟩

def lateContext : ReportContext := ⟨⟨.zero⟩, 256, 1, .zero⟩

/-- Two signatures, one of them empty. -/
def twoSignatures : List OnchainSignature := [⟨[], 0⟩, ⟨[7], 1⟩]

/-- An empty report is transmitted by somebody with an address and by somebody without one. -/
theorem transmitted_as_given_of_two_senders :
    emptyStore.Lawful ∧ (terse.message lateContext [] twoSignatures).Sized ∧
    (nameless.message lateContext [] twoSignatures).Sized ∧
    (∃ call row later,
      World.transmit "chain" obliging terse lateContext [] twoSignatures ⟨0, emptyStore, []⟩ = (.ok (.ok ()), later) ∧
      Admits "chain" "contract" (.execute call) emptyStore later.store row ∧
      call.sender = "a12uel5l" ∧ call.contract = "contract" ∧ call.funds = [] ∧
      Transmittal.read? call.msg = some ⟨lateContext.bytes, [], [[], [7]]⟩) ∧
    ∃ e, World.transmit "chain" obliging nameless lateContext [] twoSignatures ⟨0, emptyStore, []⟩ =
      (.ok (.error e), ⟨0, emptyStore, []⟩) := by
  have hpayload : (Bytes.ofText (Transmitter.payload lateContext [] twoSignatures)).length < 2 ^ 64 := by
    decide +kernel
  have hterse : (terse.message lateContext [] twoSignatures).Sized :=
    ⟨by decide, by decide, hpayload, List.forall_mem_nil _⟩
  have hnameless : (nameless.message lateContext [] twoSignatures).Sized :=
    ⟨by decide, by decide, hpayload, List.forall_mem_nil _⟩
  have haddress : Bech32.decode terse.sender = .ok ("a", []) := by decide +kernel
  have hnobody : Bech32.decode nameless.sender = .error .missingSeparator := by decide +kernel
  obtain ⟨hgiven, _⟩ := transmitted_as_given "chain" obliging terse lateContext [] twoSignatures ⟨0, emptyStore, []⟩
    lawful_emptyStore hterse
  obtain ⟨hrefused, _⟩ := transmitted_as_given "chain" obliging nameless lateContext [] twoSignatures
    ⟨0, emptyStore, []⟩ lawful_emptyStore hnameless
  rw [haddress] at hgiven
  rw [hnobody] at hrefused
  exact ⟨lawful_emptyStore, hterse, hnameless, hgiven, hrefused⟩

end Dispatch

end ReportRelay
