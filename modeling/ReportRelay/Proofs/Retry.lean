import Mathlib.Tactic.Common
import ReportRelay.Proofs.Dialogue.Clock
import ReportRelay.Retry

/-!
# Courses of a retry

A retry is one attempt after another, with a delay behind each that fails while there are more to come.
-/

namespace ReportRelay.RetryPolicy

open Dialogue (Lasts)

variable {S : Interface} {α : Type} {policy : RetryPolicy} {operation : Nat → Dialogue S (Except Error α)}
  {more attempt start finish : Nat} {t : List (Dated S)} {r : Except Crash (Except Error α)}

/-- The attempts from the given one on: every one but the last has failed and is followed by its delay, and the last one
has not failed, or is the last that is allowed. -/
inductive Tries (policy : RetryPolicy) (operation : Nat → Dialogue S (Except Error α)) :
    Nat → Nat → Nat → List (Dated S) → Nat → Except Crash (Except Error α) → Prop
  | last {more attempt start : Nat} {t : List (Dated S)} {finish : Nat} {r : Except Crash (Except Error α)}
    (attempted : (operation attempt).Lasts start t finish r) (final : more = 0 ∨ ∀ e, r ≠ .ok (.error e)) :
    Tries policy operation more attempt start t finish r
  | again {more attempt start middle : Nat} {e : Error} {t u : List (Dated S)} {finish : Nat}
    {r : Except Crash (Except Error α)} (attempted : (operation attempt).Lasts start t middle (.ok (.error e)))
    (rest : Tries policy operation more (attempt + 1) (middle + policy.delayFor attempt) u finish r) :
    Tries policy operation (more + 1) attempt start (t ++ u) finish r

/-- An attempt crashes, succeeds, or fails and is followed by the others. -/
theorem lasts_retryFrom_succ : (policy.retryFrom operation (more + 1) attempt).Lasts start t finish r ↔
    (operation attempt).Lasts start t finish r ∧ (∀ e, r ≠ .ok (.error e)) ∨
      ∃ e u v middle, t = u ++ v ∧ (operation attempt).Lasts start u middle (.ok (.error e)) ∧
        (policy.retryFrom operation more (attempt + 1)).Lasts (middle + policy.delayFor attempt) v finish r := by
  rw [retryFrom]
  refine Iff.trans Dialogue.lasts_bind ?_
  constructor
  · rintro (⟨c, hc, rfl⟩ | ⟨e | a, u, v, middle, rfl, hu, hv⟩)
    · exact .inl ⟨hc, nofun⟩
    · exact .inr ⟨e, u, v, middle, rfl, hu, Dialogue.lasts_pass_bind.1 hv⟩
    · obtain ⟨rfl, rfl, rfl⟩ := hv
      exact .inl ⟨by rwa [List.append_nil], nofun⟩
  · rintro (⟨h, hr⟩ | ⟨e, u, v, middle, rfl, hu, hv⟩)
    · match r, h, hr with
      | .error c, h, _ => exact .inl ⟨c, h, rfl⟩
      | .ok (.error e), _, hr => exact absurd rfl (hr e)
      | .ok (.ok a), h, _ => exact .inr ⟨.ok a, t, [], finish, (List.append_nil t).symm, h, rfl, rfl, rfl⟩
    · exact .inr ⟨.error e, u, v, middle, rfl, hu, Dialogue.lasts_pass_bind.2 hv⟩

theorem lasts_retryFrom : (policy.retryFrom operation more attempt).Lasts start t finish r ↔
    Tries policy operation more attempt start t finish r := by
  constructor
  · intro h
    induction more generalizing attempt start t with
    | zero => exact .last h (.inl rfl)
    | succ more ih =>
      rcases lasts_retryFrom_succ.1 h with ⟨h, hr⟩ | ⟨e, u, v, middle, rfl, hu, hv⟩
      · exact .last h (.inr hr)
      · exact .again hu (ih hv)
  · intro h
    induction h with
    | @last more attempt start t finish r attempted final =>
      cases more with
      | zero => exact attempted
      | succ more => exact lasts_retryFrom_succ.2 (.inl ⟨attempted, final.resolve_left (Nat.succ_ne_zero more)⟩)
    | again attempted _ ih => exact lasts_retryFrom_succ.2 (.inr ⟨_, _, _, _, rfl, attempted, ih⟩)

theorem lasts_retry : (policy.retry operation).Lasts start t finish r ↔
    Tries policy operation (policy.attempts - 1) 1 start t finish r :=
  lasts_retryFrom

end ReportRelay.RetryPolicy
