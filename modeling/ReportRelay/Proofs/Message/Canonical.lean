import ReportRelay.Message
import ReportRelay.Proofs.Protobuf.Field

/-!
# The canonical writing of messages

A message that was read, from whatever writing of it, is read again from its own. What can be read at all is sized:
the lengths that its writing states have 64 bits.
-/

namespace ReportRelay

open Protobuf

variable {depth : Nat} {input rest : Bytes}

namespace Coin

variable {coin : Coin}

def Sized (coin : Coin) : Prop :=
  coin.write.length < 2 ^ 64

theorem absorbs (h : coin.Sized) (depth : Nat) : Absorbs merge depth empty coin.write coin := by
  simp only [Sized, write, writeText, List.length_append] at h
  have hdenom := length_le_writeBytes 1 (.ofText coin.denom)
  have hamount := length_le_writeBytes 2 (.ofText coin.amount)
  have first : Absorbs merge depth empty (writeText 1 coin.denom) { empty with denom := coin.denom } :=
    .textField (fun denom => { empty with denom }) (by decide) (by decide) (by omega) rfl fun _ => rfl
  have second : Absorbs merge depth { empty with denom := coin.denom } (writeText 2 coin.amount) coin :=
    .textField (fun amount => { coin with amount }) (by decide) (by decide) (by omega) rfl fun _ => rfl
  exact first.append second

/-- A coin that takes in a field grows by no more than the field is long. -/
theorem length_write_of_merge {key : Key} {later : Coin} (h : merge coin depth key input = .ok (later, rest)) :
    later.write.length + rest.length ≤ coin.write.length + input.length + 1 := by
  unfold merge at h
  split at h
  · obtain ⟨⟨denom, rest'⟩, hread, h⟩ := bind_eq_ok_iff.1 (of_inField h)
    cases h
    have hread := (of_readText hread).2
    have hfield := length_writeBytes_le (show 1 < 16 by decide) (.ofText denom)
    simp only [write, writeText, List.length_append]
    omega
  · obtain ⟨⟨amount, rest'⟩, hread, h⟩ := bind_eq_ok_iff.1 (of_inField h)
    cases h
    have hread := (of_readText hread).2
    have hfield := length_writeBytes_le (show 2 < 16 by decide) (.ofText amount)
    simp only [write, writeText, List.length_append]
    omega
  · obtain ⟨rfl, hrest⟩ := of_unknownField h
    omega

theorem sized_of_readNested {wireType : WireType}
    (h : readNested merge empty depth wireType input = .ok (coin, rest)) : coin.Sized := by
  obtain ⟨fuel, inner, hinner, _, h⟩ := exists_of_readNested h
  have hlength : coin.write.length + rest.length ≤ inner.length := by
    refine mergeUntil_induction (P := fun coin rest => coin.write.length + rest.length ≤ inner.length)
      (fun hprior hkey hmerge => ?_) h (by simp [empty, write, writeText, writeBytes, Bytes.ofText])
    have hkey := of_readKey hkey
    have hmerge := length_write_of_merge hmerge
    omega
  unfold Sized
  omega

end Coin

namespace ExecuteContract

structure Sized (call : ExecuteContract) : Prop where
  sender : (Bytes.ofText call.sender).length < 2 ^ 64
  contract : (Bytes.ofText call.contract).length < 2 ^ 64
  msg : call.msg.length < 2 ^ 64
  funds : ∀ coin ∈ call.funds, coin.Sized

theorem sized_of_length {call : ExecuteContract} (h : call.write.length < 2 ^ 64) : call.Sized := by
  simp only [write, writeText, List.length_append] at h
  have hsender := length_le_writeBytes 1 (.ofText call.sender)
  have hcontract := length_le_writeBytes 2 (.ofText call.contract)
  have hmsg := length_le_writeBytes 3 call.msg
  refine ⟨by omega, by omega, by omega, fun coin hcoin => ?_⟩
  have hfunds := length_le_flatMap_writeDelimited 5 Coin.write hcoin
  unfold Coin.Sized
  omega

theorem read_write {call : ExecuteContract} (h : call.Sized) : read call.write = .ok call := by
  have hsender : Absorbs merge maxDepth empty (writeText 1 call.sender) { empty with sender := call.sender } :=
    .textField (fun sender => { empty with sender }) (by decide) (by decide) h.sender rfl fun _ => rfl
  have hcontract : Absorbs merge maxDepth { empty with sender := call.sender } (writeText 2 call.contract)
      { empty with sender := call.sender, contract := call.contract } :=
    .textField (fun contract => { empty with sender := call.sender, contract }) (by decide) (by decide) h.contract rfl
      fun _ => rfl
  have hmsg : Absorbs merge maxDepth { empty with sender := call.sender, contract := call.contract }
      (writeBytes 3 call.msg) { call with funds := [] } :=
    .bytesField (fun msg => { call with msg, funds := [] }) (by decide) (by decide) h.msg rfl fun _ => rfl
  have hfunds : Absorbs merge maxDepth { call with funds := [] }
      (call.funds.flatMap fun coin => writeDelimited 5 coin.write) call :=
    .repeated (fun funds => { call with funds }) (by decide) (by decide)
      (fun coin hcoin => ⟨h.funds coin hcoin, coin.absorbs (h.funds coin hcoin) _⟩) (fun _ _ => rfl) []
  exact (((hsender.append hcontract).append hmsg).append hfunds).read

theorem sized_of_merge {key : Key} {call later : ExecuteContract} (hcall : call.Sized)
    (h : merge call depth key input = .ok (later, rest)) : later.Sized := by
  unfold merge at h
  split at h
  · obtain ⟨⟨sender, rest'⟩, hread, h⟩ := bind_eq_ok_iff.1 (of_inField h)
    cases h
    exact { hcall with sender := (of_readText hread).1 }
  · obtain ⟨⟨contract, rest'⟩, hread, h⟩ := bind_eq_ok_iff.1 (of_inField h)
    cases h
    exact { hcall with contract := (of_readText hread).1 }
  · obtain ⟨⟨msg, rest'⟩, hread, h⟩ := bind_eq_ok_iff.1 (of_inField h)
    cases h
    exact { hcall with msg := (of_readBytes hread).1 }
  · obtain ⟨⟨coin, rest'⟩, hread, h⟩ := bind_eq_ok_iff.1 (of_inField h)
    cases h
    refine { hcall with funds := List.forall_mem_append.2 ⟨hcall.funds, ?_⟩ }
    exact List.forall_mem_singleton.2 (Coin.sized_of_readNested hread)
  · obtain ⟨rfl, _⟩ := of_unknownField h
    exact hcall

theorem sized_of_read {call : ExecuteContract} (h : read input = .ok call) : call.Sized := by
  obtain ⟨rest, h⟩ := exists_of_readMessage h
  exact mergeUntil_induction (P := fun call _ => call.Sized) (fun hprior _ hmerge => sized_of_merge hprior hmerge) h
    ⟨by decide, by decide, by decide, List.forall_mem_nil _⟩

end ExecuteContract

namespace Transfer

structure Sized (transfer : Transfer) : Prop where
  sender : (Bytes.ofText transfer.sender).length < 2 ^ 64
  recipient : (Bytes.ofText transfer.recipient).length < 2 ^ 64
  amount : ∀ coin ∈ transfer.amount, coin.Sized

theorem sized_of_length {transfer : Transfer} (h : transfer.write.length < 2 ^ 64) : transfer.Sized := by
  simp only [write, writeText, List.length_append] at h
  have hsender := length_le_writeBytes 1 (.ofText transfer.sender)
  have hrecipient := length_le_writeBytes 2 (.ofText transfer.recipient)
  refine ⟨by omega, by omega, fun coin hcoin => ?_⟩
  have hamount := length_le_flatMap_writeDelimited 3 Coin.write hcoin
  unfold Coin.Sized
  omega

theorem read_write {transfer : Transfer} (h : transfer.Sized) : read transfer.write = .ok transfer := by
  have hsender : Absorbs merge maxDepth empty (writeText 1 transfer.sender)
      { empty with sender := transfer.sender } :=
    .textField (fun sender => { empty with sender }) (by decide) (by decide) h.sender rfl fun _ => rfl
  have hrecipient : Absorbs merge maxDepth { empty with sender := transfer.sender }
      (writeText 2 transfer.recipient) { transfer with amount := [] } :=
    .textField (fun recipient => { transfer with recipient, amount := [] }) (by decide) (by decide) h.recipient rfl
      fun _ => rfl
  have hamount : Absorbs merge maxDepth { transfer with amount := [] }
      (transfer.amount.flatMap fun coin => writeDelimited 3 coin.write) transfer :=
    .repeated (fun amount => { transfer with amount }) (by decide) (by decide)
      (fun coin hcoin => ⟨h.amount coin hcoin, coin.absorbs (h.amount coin hcoin) _⟩) (fun _ _ => rfl) []
  exact ((hsender.append hrecipient).append hamount).read

theorem sized_of_merge {key : Key} {transfer later : Transfer} (htransfer : transfer.Sized)
    (h : merge transfer depth key input = .ok (later, rest)) : later.Sized := by
  unfold merge at h
  split at h
  · obtain ⟨⟨sender, rest'⟩, hread, h⟩ := bind_eq_ok_iff.1 (of_inField h)
    cases h
    exact { htransfer with sender := (of_readText hread).1 }
  · obtain ⟨⟨recipient, rest'⟩, hread, h⟩ := bind_eq_ok_iff.1 (of_inField h)
    cases h
    exact { htransfer with recipient := (of_readText hread).1 }
  · obtain ⟨⟨coin, rest'⟩, hread, h⟩ := bind_eq_ok_iff.1 (of_inField h)
    cases h
    refine { htransfer with amount := List.forall_mem_append.2 ⟨htransfer.amount, ?_⟩ }
    exact List.forall_mem_singleton.2 (Coin.sized_of_readNested hread)
  · obtain ⟨rfl, _⟩ := of_unknownField h
    exact htransfer

theorem sized_of_read {transfer : Transfer} (h : read input = .ok transfer) : transfer.Sized := by
  obtain ⟨rest, h⟩ := exists_of_readMessage h
  exact mergeUntil_induction (P := fun transfer _ => transfer.Sized)
    (fun hprior _ hmerge => sized_of_merge hprior hmerge) h ⟨by decide, by decide, List.forall_mem_nil _⟩

end Transfer

namespace Message

variable {message : Message} {url : String} {raw : Bytes}

/-- All lengths that the message's writing states have 64 bits. -/
def Sized : Message → Prop
  | execute call => call.Sized
  | send transfer => transfer.Sized

/-- Messages of fewer bytes than 64 bits can count are sized. -/
theorem sized_of_length (h : message.write.length < 2 ^ 64) : message.Sized := by
  cases message with
  | execute call => exact ExecuteContract.sized_of_length h
  | send transfer => exact Transfer.sized_of_length h

theorem of_read (h : read url raw = .ok message) : message.typeUrl = url ∧ message.Sized := by
  unfold read at h
  split at h
  next hexecute =>
    split at h
    next call hcall =>
      cases h
      exact ⟨hexecute.symm, ExecuteContract.sized_of_read hcall⟩
    next => cases h
  next =>
    split at h
    next hsend =>
      split at h
      next transfer htransfer =>
        cases h
        exact ⟨hsend.symm, Transfer.sized_of_read htransfer⟩
      next => cases h
    next => cases h

theorem read_write (h : message.Sized) : read message.typeUrl message.write = .ok message := by
  cases message with
  | execute call =>
    have hread := ExecuteContract.read_write h
    simp only [read, typeUrl, write, if_pos, hread]
  | send transfer =>
    have hread := Transfer.read_write h
    have hother : sendUrl ≠ executeUrl := by decide
    simp only [read, typeUrl, write, if_neg hother, if_pos, hread]

/-- The sender of the message is an address. -/
def Addressed (message : Message) : Prop :=
  ∃ parts, Bech32.decode message.sender = .ok parts

theorem checkSender_eq_ok_iff {address : String} :
    checkSender address = .ok () ↔ ∃ parts, Bech32.decode address = .ok parts := by
  unfold checkSender
  split
  next parts hparts => simp [hparts]
  next fault hfault => simp [hfault]

theorem decode_eq_ok_iff : decode url raw = .ok message ↔ read url raw = .ok message ∧ message.Addressed := by
  unfold decode Addressed
  simp only [bind_eq_ok_iff, pure_eq_ok_iff]
  constructor
  · rintro ⟨_, hread, ⟨⟩, hsender, rfl⟩
    exact ⟨hread, checkSender_eq_ok_iff.1 hsender⟩
  · rintro ⟨hread, hsender⟩
    exact ⟨message, hread, (), checkSender_eq_ok_iff.2 hsender, rfl⟩

/-- What was read from any writing is read again from the canonical one. -/
theorem decode_write_of_decode (h : decode url raw = .ok message) :
    decode message.typeUrl message.write = .ok message := by
  obtain ⟨hread, hsender⟩ := decode_eq_ok_iff.1 h
  exact decode_eq_ok_iff.2 ⟨read_write (of_read hread).2, hsender⟩

theorem ofEnvelope_toEnvelope_iff :
    ofEnvelope message.toEnvelope = .ok message ↔ message.Addressed ∧ message.Sized := by
  constructor
  · intro h
    obtain ⟨hread, hsender⟩ := decode_eq_ok_iff.1 h
    exact ⟨hsender, (of_read hread).2⟩
  · rintro ⟨hsender, hsized⟩
    exact decode_eq_ok_iff.2 ⟨read_write hsized, hsender⟩

/-- A message whose sender is no address cannot be read from its own writing either. -/
theorem exists_error_of_not_addressed (hsized : message.Sized) (h : ¬message.Addressed) :
    ∃ e, ofEnvelope message.toEnvelope = .error e := by
  cases hread : ofEnvelope message.toEnvelope with
  | error e => exact ⟨e, rfl⟩
  | ok other =>
    obtain ⟨hother, haddressed⟩ := decode_eq_ok_iff.1 hread
    obtain rfl : message = other := Except.ok.inj ((read_write hsized).symm.trans hother)
    exact absurd haddressed h

end Message

end ReportRelay
