import EnvInventory.Log.Event

/-!
# How much is reported

The verbosity is a number from zero, for nothing, to six, for everything including what the libraries
report.  `LogSettings` says what goes to the console and what into a file.
-/

namespace EnvInventory.Log

/-- How much is reported. -/
abbrev Verbosity := Fin 7

namespace Verbosity

/-- The verbosity with a number, which is at most six. -/
def ofNat? (number : Nat) : Option Verbosity :=
  if h : number < 7 then some ⟨number, h⟩ else none

/-- Warnings and errors. -/
def warnings : Verbosity := 2

/-- All but traces. -/
def debugging : Verbosity := 4

def shows (verbosity : Verbosity) (level : Level) : Bool :=
  level.rank ≤ verbosity.val

/-- The name of the least important level that is reported. -/
def label (verbosity : Verbosity) : String :=
  match verbosity.val with
  | 0 => "off"
  | 1 => "error"
  | 2 => "warn"
  | 3 => "info"
  | 4 => "debug"
  | _ => "trace"

/-- The rule for what is reported: first for libraries, which report warnings at most unless
everything is wanted, and then for the program itself. -/
def filter (verbosity : Verbosity) : String :=
  if verbosity.val = 0 ∨ verbosity.val = 6 then verbosity.label
  else
    let libraries := if verbosity.val < 2 then verbosity.label else "warn"
    libraries ++ ",envdoc=" ++ verbosity.label

end Verbosity

/-- The forms of reported events. -/
inductive Form where
  | text
  | json
deriving Repr, DecidableEq, Inhabited

def Form.label : Form → String
  | .text => "text"
  | .json => "json"

def Form.ofLabel? (label : String) : Option Form :=
  if label = "text" then some .text
  else if label = "json" then some .json
  else none

/-- What is reported where. -/
structure LogSettings where
  console : Verbosity := Verbosity.warnings
  file : Verbosity := Verbosity.debugging
  /-- The file that events are added to, if there is one. -/
  logFile : Option String := none
  form : Form := .text
deriving Repr, DecidableEq, Inhabited

end EnvInventory.Log
