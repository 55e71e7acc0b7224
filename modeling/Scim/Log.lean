/-!
# Log lines

What an operation reports of its course, line by line, with a level each.
-/

namespace Scim

inductive LogLevel where
  | warn
  | info
  | debug
  | trace
  deriving DecidableEq, Repr

namespace LogLevel

def name : LogLevel → String
  | .warn => "WARN"
  | .info => "INFO"
  | .debug => "DEBUG"
  | .trace => "TRACE"

end LogLevel

structure LogLine where
  level : LogLevel
  text : String
  deriving DecidableEq, Repr

namespace LogLine

def display (l : LogLine) : String :=
  l.level.name ++ " " ++ l.text

end LogLine

/-- A count as written in a log line. -/
def countText (n : Nat) : String :=
  String.ofList (Nat.toDigits 10 n)

end Scim
