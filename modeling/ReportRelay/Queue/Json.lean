import ReportRelay.Json.Record
import ReportRelay.Json.Text
import ReportRelay.Queue.State

/-!
# Message states in JSON
-/

namespace ReportRelay.MsgState

def reader : Json.Reader MsgState :=
  Json.Reader.named ofName?

def json (state : MsgState) : String :=
  Json.quoted state.name

end ReportRelay.MsgState
