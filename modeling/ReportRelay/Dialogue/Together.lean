import ReportRelay.Dialogue

/-!
# Dialogues side by side

Two dialogues on one clock. Whichever has less time left to wait moves next, and moves on until it has to wait
again. When both are equally far, the one that leads goes first. Either the first one always leads, or they take
turns: the lead changes at every moment at which one of them goes on.
-/

namespace ReportRelay.Dialogue

variable {S : Interface} {α β : Type}

/-- Lets the second dialogue move until the first one, which still has to wait for `own`, goes next; then
`first` makes its move, given who leads and how long the second one still has to wait. -/
def moves (change : Bool → Bool) (first : Bool → Nat → Dialogue S β → Dialogue S α) (leads : Bool)
    (own other : Nat) (second : Dialogue S β) : Dialogue S α :=
  let leads := if 0 < min own other then change leads else leads
  if own < other ∨ (own = other ∧ leads) then
    (pass own).bind fun _ => first leads (other - own) second
  else
    match second with
    | done b => (pass own).bind fun _ => first leads 0 (done b)
    | crash c => (pass other).bind fun _ => crash c
    | wait _ d k => (pass other).bind fun _ => moves change first leads (own - other) d (k ())
    | ask q k =>
      (pass other).bind fun _ => ask q fun a => moves change first leads (own - other) 0 (k a)

/-- Runs two dialogues to their ends, the first after waiting for `own` and the second for `other`. -/
def together (change : Bool → Bool) :
    Dialogue S α → Bool → Nat → Nat → Dialogue S β → Dialogue S (α × β)
  | done a, leads, own, other, q =>
    moves change (fun _ left q => (pass left).bind fun _ => q.bind fun b => done (a, b))
      leads own other q
  | crash c, leads, own, other, q => moves change (fun _ _ _ => crash c) leads own other q
  | wait _ d k, leads, own, other, q =>
    moves change (fun leads left q => together change (k ()) leads d left q) leads own other q
  | ask r k, leads, own, other, q =>
    moves change (fun leads left q => ask r fun a => together change (k a) leads 0 left q)
      leads own other q

/-- Two dialogues of which the first one always leads. -/
def both (p : Dialogue S α) (q : Dialogue S β) : Dialogue S (α × β) :=
  together id p true 0 0 q

/-- Two dialogues that lead in turns, the first one at the beginning. -/
def inTurns (p : Dialogue S α) (q : Dialogue S β) : Dialogue S (α × β) :=
  together not p true 0 0 q

def all : List (Dialogue S Unit) → Dialogue S Unit
  | [] => done ()
  | p :: ps => (both p (all ps)).bind fun _ => done ()

end ReportRelay.Dialogue
