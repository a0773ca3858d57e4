/-!
# Events

While it works the program reports events.  An event has a level, the part of the program that
reports it, a message and some named values.
-/

namespace EnvInventory.Log

/-- Importance of an event, the most important first. -/
inductive Level where
  | error
  | warn
  | info
  | debug
  | trace
deriving Repr, DecidableEq, Inhabited

/-- Rank of a level: one for the most important. -/
def Level.rank : Level → Nat
  | .error => 1
  | .warn => 2
  | .info => 3
  | .debug => 4
  | .trace => 5

def Level.label : Level → String
  | .error => "ERROR"
  | .warn => "WARN"
  | .info => "INFO"
  | .debug => "DEBUG"
  | .trace => "TRACE"

/-- A named value of an event. -/
inductive Detail where
  /-- A text that is written as it is. -/
  | bare (text : String)
  /-- A text that is written between quotes. -/
  | quoted (text : String)
  | count (number : Nat)
deriving Repr, DecidableEq, Inhabited

/-- An event. -/
structure Event where
  level : Level
  /-- The part of the program that reports it. -/
  origin : String
  message : String
  details : List (String × Detail)
deriving Repr, DecidableEq, Inhabited

end EnvInventory.Log
