/-!
# Log lines

Only warnings and errors are kept apart from what the relay does; they are said as part of a dialogue.
-/

namespace ReportRelay

inductive Severity
  | warn
  | error
  deriving DecidableEq, Repr

structure LogLine where
  severity : Severity
  text : String
  deriving DecidableEq, Repr

namespace LogLine

def warn (text : String) : LogLine := ⟨.warn, text⟩

def error (text : String) : LogLine := ⟨.error, text⟩

def shown (line : LogLine) : String :=
  match line.severity with
  | .warn => "WARN " ++ line.text
  | .error => "ERROR " ++ line.text

end LogLine

end ReportRelay
