import ReportRelay.Error

/-!
# Life of a queued message

A message goes from unstarted over started and broadcasted to confirmed, and may become errored on the
way. Confirmed and errored are final.
-/

namespace ReportRelay

inductive MsgState
  | unstarted
  | started
  | broadcasted
  | confirmed
  | errored
  deriving DecidableEq, Repr

namespace MsgState

def values : List MsgState :=
  [unstarted, started, broadcasted, confirmed, errored]

def name : MsgState → String
  | unstarted => "unstarted"
  | started => "started"
  | broadcasted => "broadcasted"
  | confirmed => "confirmed"
  | errored => "errored"

def ofName? (text : String) : Option MsgState :=
  values.find? fun state => state.name = text

def ofName (text : String) : Except Error MsgState :=
  match ofName? text with
  | some state => .ok state
  | none => .error (.internal s!"unknown msg state {text}")

def isTerminal : MsgState → Bool
  | confirmed | errored => true
  | _ => false

def canMoveTo : MsgState → MsgState → Bool
  | unstarted, started | unstarted, errored
  | started, broadcasted | started, errored
  | broadcasted, confirmed | broadcasted, errored => true
  | _, _ => false

/-- Whether a message in this state belongs to a known transaction. -/
def hasTxHash : MsgState → Bool
  | broadcasted | confirmed => true
  | _ => false

end MsgState

end ReportRelay
