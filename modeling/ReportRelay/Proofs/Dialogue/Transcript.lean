import ReportRelay.Proofs.Dialogue.Course

/-!
# Transcripts

What a dialogue asks in a world that answers it, with the world as it was at each question.
-/

namespace ReportRelay.Dialogue

variable {S : Interface} {α σ : Type}

/-- The questions in their order, each in the world that it met and with the answer that it got. -/
def trace (pass : Nat → σ → σ) (answer : (q : S.Question) → σ → S.Answer q × σ) :
    Dialogue S α → σ → List (σ × Event S)
  | done _, _ => []
  | crash _, _ => []
  | wait _ nanos k, s => trace pass answer (k ()) (pass nanos s)
  | ask q k, s => (s, ⟨q, (answer q s).1⟩) :: trace pass answer (k (answer q s).1) (answer q s).2

def transcript (pass : Nat → σ → σ) (answer : (q : S.Question) → σ → S.Answer q × σ) (p : Dialogue S α) (s : σ) :
    List (Event S) :=
  (p.trace pass answer s).map Prod.snd

variable {pass : Nat → σ → σ} {answer : (q : S.Question) → σ → S.Answer q × σ}

/-- A run takes the course of its transcript. -/
theorem takes_transcript (p : Dialogue S α) (s : σ) :
    p.Takes (p.transcript pass answer s) (p.run pass answer s).1 := by
  induction p generalizing s with
  | done | crash => exact ⟨rfl, rfl⟩
  | wait idle nanos k ih => exact ih () (pass nanos s)
  | ask q k ih => exact ⟨_, _, rfl, ih (answer q s).1 (answer q s).2⟩

/-- Every question of a run is answered as the world that it met answers it. -/
theorem answer_eq_of_mem_trace {p : Dialogue S α} {s : σ} {step : σ × Event S}
    (h : step ∈ p.trace pass answer s) : step.2.answer = (answer step.2.question step.1).1 := by
  induction p generalizing s with
  | done | crash => cases h
  | wait idle nanos k ih => exact ih () h
  | ask q k ih =>
    rcases List.mem_cons.1 h with rfl | h
    · rfl
    · exact ih (answer q s).1 h

/-- What every answer preserves holds at every question, and at the end. -/
theorem forall_trace {P : σ → Prop} (hpass : ∀ nanos s, P s → P (pass nanos s))
    (hanswer : ∀ q s, P s → P (answer q s).2) (p : Dialogue S α) {s : σ} (hs : P s) :
    (∀ step ∈ p.trace pass answer s, P step.1) ∧ P (p.run pass answer s).2 := by
  induction p generalizing s with
  | done | crash => exact ⟨List.forall_mem_nil _, hs⟩
  | wait idle nanos k ih => exact ih () (hpass nanos s hs)
  | ask q k ih =>
    obtain ⟨hrest, hend⟩ := ih (answer q s).1 (hanswer q s hs)
    exact ⟨List.forall_mem_cons.2 ⟨hs, hrest⟩, hend⟩

end ReportRelay.Dialogue
