/-!
# Dialogues

A dialogue is a program that talks to somebody: it asks questions, each with its own type of answer,
lets time pass, and ends with a result or crashes. What the answers are is left to whoever runs it,
so a statement about all answers is a statement about all collaborators. Time is counted in
nanoseconds and passes only where a dialogue waits, for as long as it asks to. A timer that rings late,
or that cannot wait so long, is left to whoever runs the dialogue.
-/

namespace ReportRelay

/-- The questions that a dialogue may ask, with the type of the answer to each. -/
structure Interface where
  Question : Type
  Answer : Question → Type

/-- Why a dialogue stopped without a result: a failure that carries a text, or one without. -/
inductive Crash
  | text (message : String)
  | unnamed
  deriving DecidableEq, Repr

def Crash.message : Crash → String
  | text message => message
  | unnamed => "unknown panic"

/-- `wait idle d rest` lets `d` nanoseconds pass. An idle wait may be cut short from outside. -/
inductive Dialogue (S : Interface) (α : Type) : Type
  | done (result : α)
  | crash (reason : Crash)
  | wait (idle : Bool) (nanos : Nat) (rest : Unit → Dialogue S α)
  | ask (question : S.Question) (rest : S.Answer question → Dialogue S α)

namespace Dialogue

variable {S T : Interface} {α β : Type}

def bind : Dialogue S α → (α → Dialogue S β) → Dialogue S β
  | done a, f => f a
  | crash c, _ => crash c
  | wait idle d k, f => wait idle d fun _ => bind (k ()) f
  | ask q k, f => ask q fun a => bind (k a) f

instance : Monad (Dialogue S) where
  pure := done
  bind := bind

def question (q : S.Question) : Dialogue S (S.Answer q) :=
  ask q done

/-- Lets time pass. No time passing is not a wait. -/
def pass (nanos : Nat) : Dialogue S Unit :=
  if nanos = 0 then done () else wait false nanos fun _ => done ()

def idle (nanos : Nat) : Dialogue S Unit :=
  wait true nanos fun _ => done ()

/-- Turns a crash into a result. -/
def guarded : Dialogue S α → Dialogue S (Except Crash α)
  | done a => done (.ok a)
  | crash c => done (.error c)
  | wait i d k => wait i d fun _ => guarded (k ())
  | ask q k => ask q fun a => guarded (k a)

/-- Runs a dialogue in a world that answers it and in which time passes. -/
def run {σ : Type} (pass : Nat → σ → σ) (answer : (q : S.Question) → σ → S.Answer q × σ) :
    Dialogue S α → σ → Except Crash α × σ
  | done a, s => (.ok a, s)
  | crash c, s => (.error c, s)
  | wait _ d k, s => run pass answer (k ()) (pass d s)
  | ask q k, s =>
    let (a, s) := answer q s
    run pass answer (k a) s

/-- Replaces every question by a dialogue that finds its answer, with a state that is passed along from
question to question. -/
def answering {σ : Type} (answer : (q : S.Question) → σ → Dialogue T (S.Answer q × σ)) :
    Dialogue S α → σ → Dialogue T (Except Crash α × σ)
  | done a, s => done (.ok a, s)
  | crash c, s => done (.error c, s)
  | wait i d k, s => wait i d fun _ => answering answer (k ()) s
  | ask q k, s => (answer q s).bind fun r => answering answer (k r.1) r.2

/-- Replaces every question by a dialogue that finds its answer. -/
def through (answer : (q : S.Question) → Dialogue T (S.Answer q)) : Dialogue S α → Dialogue T α
  | done a => done a
  | crash c => crash c
  | wait i d k => wait i d fun _ => through answer (k ())
  | ask q k => (answer q).bind fun a => through answer (k a)

/-- What a dialogue comes to when no time passes: its end, or a wait that takes some. -/
inductive Halt (S : Interface) (α : Type)
  | ended (result : α)
  | waiting (idle : Bool) (nanos : Nat) (positive : 0 < nanos) (rest : Dialogue S α)

/-- Runs a dialogue as far as it comes without any time passing. -/
def advance : Dialogue S α → Dialogue S (Halt S α)
  | done a => done (.ended a)
  | crash c => crash c
  | wait idle d k =>
    if positive : 0 < d then done (.waiting idle d positive (k ())) else advance (k ())
  | ask q k => ask q fun a => advance (k a)

/-- Ends a dialogue at its next idle wait, with the given result. -/
def untilIdle (stopped : α) : Dialogue S α → Dialogue S α
  | done a => done a
  | crash c => crash c
  | wait true _ _ => done stopped
  | wait false d k => wait false d fun _ => untilIdle stopped (k ())
  | ask q k => ask q fun a => untilIdle stopped (k a)

end Dialogue

end ReportRelay
