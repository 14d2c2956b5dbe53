import ReportRelay.Dialogue

/-!
# Loops in the background

The loops that run behind whatever is done in the foreground: the current one, and those that were told to stop
but have not come to their end. They wait in the order in which they go on; of two that go on at the same moment,
the one that began to wait first. The foreground goes on before all of them.
-/

namespace ReportRelay.Polling

variable {S : Interface} {α : Type}

/-- A loop that goes on when its time has passed. What takes a loop down is its result. -/
structure Task (S : Interface) where
  isCurrent : Bool
  nanos : Nat
  idle : Bool
  rest : Dialogue S (Except Crash Unit)

namespace Task

def after (nanos : Nat) (task : Task S) : Task S :=
  { task with nanos := task.nanos - nanos }

/-- Adds a task to those that wait, behind all that are due no later. -/
def insert (task : Task S) : List (Task S) → List (Task S)
  | [] => [task]
  | other :: others =>
    if other.nanos ≤ task.nanos then other :: insert task others else task :: other :: others

/-- The time that tasks may still use before a limit, all together. -/
def timeLeft (limit : Nat) (tasks : List (Task S)) : Nat :=
  (tasks.map fun task => limit - task.nanos).foldr (· + ·) 0

theorem timeLeft_cons (limit : Nat) (task : Task S) (tasks : List (Task S)) :
    timeLeft limit (task :: tasks) = limit - task.nanos + timeLeft limit tasks := by
  simp [timeLeft]

theorem timeLeft_insert (limit : Nat) (task : Task S) (tasks : List (Task S)) :
    timeLeft limit (insert task tasks) = limit - task.nanos + timeLeft limit tasks := by
  induction tasks with
  | nil => simp [insert, timeLeft]
  | cons other others ih =>
    rw [insert]
    split
    · rw [timeLeft_cons, ih, timeLeft_cons]; omega
    · rw [timeLeft_cons]

theorem timeLeft_after (limit nanos : Nat) (tasks : List (Task S)) :
    timeLeft (limit - nanos) (tasks.map (after nanos)) ≤ timeLeft limit tasks := by
  induction tasks with
  | nil => simp [timeLeft]
  | cons task tasks ih =>
    rw [List.map_cons, timeLeft_cons, timeLeft_cons]
    simp only [after]
    omega

end Task

/-- Whether there is a current loop, or how it ended. -/
inductive Current
  | none
  | running
  | ended (outcome : Except Crash Unit)

structure Background (S : Interface) where
  current : Current
  tasks : List (Task S)

namespace Background

def none : Background S := ⟨.none, []⟩

/-- Starts a loop unless there is one. -/
def start (background : Background S) (loop : Dialogue S (Except Crash Unit)) : Background S :=
  match background.current with
  | .none => ⟨.running, Task.insert ⟨true, 0, false, loop⟩ background.tasks⟩
  | _ => background

def after (nanos : Nat) (background : Background S) : Background S :=
  { background with tasks := background.tasks.map (Task.after nanos) }

/-- Takes in what a task has come to. -/
def halted (background : Background S) (task : Task S) :
    Dialogue.Halt S (Except Crash Unit) → Background S
  | .ended outcome =>
    if task.isCurrent then { background with current := .ended outcome } else background
  | .waiting idle nanos _ rest =>
    { background with tasks := Task.insert { task with idle, nanos, rest } background.tasks }

theorem timeLeft_halted (limit : Nat) (background : Background S) (task : Task S)
    (halt : Dialogue.Halt S (Except Crash Unit)) (h : 0 < limit) :
    Task.timeLeft limit (background.halted task halt).tasks
      < limit + Task.timeLeft limit background.tasks := by
  cases halt with
  | ended outcome =>
    rw [halted]
    split <;> simpa using h
  | waiting idle nanos positive rest =>
    rw [halted, Task.timeLeft_insert]
    simp only
    omega

/-- Lets the tasks go on for less than `limit`, or until it is to stop, and tells how much of the limit is
left. Every move of a task uses up some of the time that it may use, so this comes to an end. -/
def run (stop : Background S → Bool) (limit : Nat) (background : Background S) :
    Dialogue S (Nat × Background S) :=
  if stop background then .done (limit, background)
  else
    match _waiting : background.tasks with
    | [] => (Dialogue.pass limit).bind fun _ => .done (0, background)
    | task :: others =>
      if _early : task.nanos < limit then
        (Dialogue.pass task.nanos).bind fun _ =>
          task.rest.advance.bind fun halt =>
            run stop (limit - task.nanos)
              ((after task.nanos { background with tasks := others }).halted task halt)
      else (Dialogue.pass limit).bind fun _ => .done (0, background.after limit)
termination_by Task.timeLeft limit background.tasks
decreasing_by
  rw [_waiting, Task.timeLeft_cons]
  have before := Task.timeLeft_after limit task.nanos others
  have next := timeLeft_halted (limit - task.nanos)
    (after task.nanos { background with tasks := others }) task halt (by omega)
  simp only [after] at before next ⊢
  omega

/-- Lets time pass in the foreground. -/
def elapse (nanos : Nat) (background : Background S) : Dialogue S (Background S) :=
  (background.run (fun _ => false) nanos).bind fun r => .done r.2

/-- Lets those tasks go on that are due at this very moment. -/
def settle (background : Background S) : Dialogue S (Background S) :=
  (background.run (fun b => b.tasks.all fun task => 0 < task.nanos) 1).bind fun r => .done r.2

/-- Does something in the foreground while the loops go on. -/
def beside : Background S → Dialogue S α → Dialogue S (α × Background S)
  | background, .done a => .done (a, background)
  | _, .crash c => .crash c
  | background, .wait _ d k => (background.elapse d).bind fun background => beside background (k ())
  | background, .ask q k => .ask q fun a => beside background (k a)

/-! ## Stopping -/

/-- Tells the current loop to stop. It does so at its next idle wait; from such a wait it wakes up, behind
those that are due already. -/
def stop (background : Background S) : Background S :=
  let (resting, others) := background.tasks.partition fun task => task.isCurrent && task.idle
  let others := others.map fun task =>
    if task.isCurrent then { task with rest := task.rest.untilIdle (.ok ()) } else task
  { background with
    tasks := resting.foldr
      (fun task => Task.insert { task with nanos := 0, idle := false, rest := .done (.ok ()) }) others }

def hasEnded (background : Background S) : Bool :=
  match background.current with
  | .ended _ => true
  | _ => false

/-- How the waiting for a loop's end came out. -/
inductive Closing
  | notRunning
  | ended (outcome : Except Crash Unit)
  | timedOut

/-- Tells the current loop to stop and waits for its end, but for less than the timeout. A loop that does not
end by then goes on for itself. -/
def close (background : Background S) (timeout : Nat) : Dialogue S (Closing × Background S) :=
  match background.current with
  | .none => return (.notRunning, background)
  | .ended outcome => return (.ended outcome, { background with current := .none })
  | .running => do
    let (_, background) ← background.stop.run hasEnded timeout
    match background.current with
    | .ended outcome => do
      let background ← background.settle
      return (.ended outcome, { background with current := .none })
    | _ => return (.timedOut, ⟨.none, background.tasks.map fun task => { task with isCurrent := false }⟩)

end Background

end ReportRelay.Polling
