import ReportRelay.Proofs.Dispatch.Step

/-!
# Courses of a confirmation

A transaction is looked up until a lookup succeeds or the attempts run out. The last reply decides what becomes
of its messages: only a transaction that was found with code zero confirms them.
-/

namespace ReportRelay.Dispatch

variable {t : List (Event interface)}

/-- Replies to lookups of which up to `more` may follow the first: only the last may be no error, and the
last one counts. -/
inductive Tried : Nat → List (Reply TxResponse) → Except Crash (Except Error TxResponse) → Prop
  | last {more : Nat} {reply : Reply TxResponse} {r : Except Crash (Except Error TxResponse)}
    (outcome : reply.outcome = r) (final : more = 0 ∨ ∀ e, r ≠ .ok (.error e)) :
    Tried more [reply] r
  | again {more : Nat} {reply : Reply TxResponse} {e : Error} {replies : List (Reply TxResponse)}
    {r : Except Crash (Except Error TxResponse)} (outcome : reply.outcome = .ok (.error e))
    (rest : Tried more replies r) : Tried (more + 1) (reply :: replies) r

/-- What a lookup makes of the messages. -/
inductive Concludes (ids : List MsgId) : Except Crash (Except Error TxResponse) →
    List (Event interface) → Except Crash (Except Error Unit) → Prop
  | crashed {c : Crash} : Concludes ids (.error c) [] (.error c)
  | confirmed {response : TxResponse} {a : Except Error Unit} (code : response.code = 0) :
    Concludes ids (.ok (.ok response)) [moving ids .confirmed a] (.ok a)
  | failed {response : TxResponse} {a : Except Error Unit} (code : response.code ≠ 0) :
    Concludes ids (.ok (.ok response)) [moving ids .errored a] (.ok a)
  | unknown {e : Error} {a : Except Error Unit} :
    Concludes ids (.ok (.error e)) [moving ids .errored a] (.ok a)

def lookUps (behalf : Behalf) (txHash : String) (replies : List (Reply TxResponse)) :
    List (Event interface) :=
  replies.map fun reply => called behalf (.lookUp txHash) reply

inductive ConfirmCourse (settings : Settings) (behalf : Behalf) (txHash : String) :
    List (Event interface) → Except Crash (Except Error Unit) → Prop
  | looked {replies : List (Reply TxResponse)} {found : Except Crash (Except Error TxResponse)}
    {es : List (Event interface)} {r : Except Crash (Except Error Unit)}
    (tried : Tried (settings.confirmRetry.attempts - 1) replies found)
    (concluded : Concludes behalf.ids found es r) :
    ConfirmCourse settings behalf txHash (lookUps behalf txHash replies ++ es) r

theorem Tried.exists_reply {more : Nat} {replies : List (Reply TxResponse)}
    {r : Except Crash (Except Error TxResponse)} (h : Tried more replies r) :
    ∃ reply ∈ replies, reply.outcome = r := by
  induction h with
  | last outcome final => exact ⟨_, List.mem_singleton_self _, outcome⟩
  | again outcome rest ih =>
    obtain ⟨reply, hmem, hr⟩ := ih
    exact ⟨reply, List.mem_cons_of_mem _ hmem, hr⟩

theorem takes_retryFrom (policy : RetryPolicy) {behalf : Behalf} {txHash : String} {more attempt : Nat}
    {r : Except Crash (Except Error TxResponse)}
    (h : (policy.retryFrom (fun _ => (call behalf (.lookUp txHash)).outcome) more attempt).Takes t r) :
    ∃ replies, deeds t = lookUps behalf txHash replies ∧ Tried more replies r := by
  induction more generalizing attempt t with
  | zero =>
    obtain ⟨reply, rfl, rfl⟩ := takes_call.1 h
    exact ⟨[reply], rfl, .last rfl (.inl rfl)⟩
  | succ more ih =>
    rcases Dialogue.takes_bind.1 h with ⟨c, hc, rfl⟩ | ⟨result, u, v, rfl, hu, hv⟩
    · obtain ⟨reply, rfl, hr⟩ := takes_call.1 hc
      exact ⟨[reply], rfl, .last hr.symm (.inr fun _ => nofun)⟩
    · obtain ⟨reply, rfl, hr⟩ := takes_call.1 hu
      cases result with
      | ok response =>
        obtain ⟨rfl, rfl⟩ := hv
        exact ⟨[reply], rfl, .last hr.symm (.inr fun _ => nofun)⟩
      | error e =>
        obtain ⟨replies, hdeeds, htried⟩ := ih (Dialogue.takes_pass_bind.1 hv)
        exact ⟨reply :: replies, congrArg (called behalf (.lookUp txHash) reply :: ·) hdeeds,
          .again hr.symm htried⟩

theorem takes_lookUp {settings : Settings} {behalf : Behalf} {txHash : String}
    {r : Except Crash (Except Error TxResponse)} (h : (lookUp settings behalf txHash).Takes t r) :
    ∃ replies, deeds t = lookUps behalf txHash replies ∧
      Tried (settings.confirmRetry.attempts - 1) replies r :=
  takes_retryFrom _ h

theorem takes_confirmTx {settings : Settings} {behalf : Behalf} {txHash : String}
    {r : Except Crash (Except Error Unit)} (h : (confirmTx settings behalf txHash).Takes t r) :
    ConfirmCourse settings behalf txHash (deeds t) r := by
  unfold confirmTx at h
  rcases Attempt.takes_ofDialogue_bind.1 h with ⟨c, hc, rfl⟩ | ⟨found, u, v, rfl, hu, hv⟩
  · obtain ⟨replies, hdeeds, htried⟩ := takes_lookUp hc
    rw [hdeeds, ← List.append_nil (lookUps _ _ _)]
    exact .looked htried .crashed
  · obtain ⟨replies, hdeeds, htried⟩ := takes_lookUp hu
    rw [deeds_append, hdeeds]
    cases found with
    | ok response =>
      dsimp only at hv
      split at hv
      · next hcode =>
        obtain ⟨a, hdeeds, rfl⟩ := takes_update hv
        rw [hdeeds]
        exact .looked htried (.confirmed hcode)
      · next hcode =>
        obtain ⟨w, hw, hv⟩ := takes_log_bind hv
        obtain ⟨a, hdeeds, rfl⟩ := takes_update hv
        rw [hw, hdeeds]
        exact .looked htried (.failed hcode)
    | error e =>
      obtain ⟨w, hw, hv⟩ := takes_log_bind hv
      obtain ⟨a, hdeeds, rfl⟩ := takes_update hv
      rw [hw, hdeeds]
      exact .looked htried .unknown

end ReportRelay.Dispatch
