import EnvInventory.Date.Format
import EnvInventory.Json.Render
import EnvInventory.Log.Verbosity
import EnvInventory.Text.Parts
import EnvInventory.Text.Quoted

/-!
# Lines for events

Each event is written as one line.  In the text form, lines for the console show the level, the
message and the details, and lines for a file also the time and the part of the program.  In the
other form a line is a JSON object with all of these.
-/

namespace EnvInventory.Log

open Text

def Detail.text : Detail → String
  | .bare text => text
  | .quoted text => Text.quoted text
  | .count number => toString number

def Detail.json : Detail → Json.Value
  | .bare text => .string text
  | .quoted text => .string text
  | .count number => .number (.integer number)

namespace Event

def body (event : Event) : String :=
  joinWith " " (event.message :: event.details.map fun (name, detail) => name ++ "=" ++ detail.text)

def levelColumn (event : Event) : String :=
  let label := event.level.label
  String.ofList (List.replicate (5 - label.length) ' ') ++ label

/-- The line for the console in the text form. -/
def consoleLine (event : Event) : String :=
  event.levelColumn ++ " " ++ event.body

def fileLine (time : String) (event : Event) : String :=
  time ++ " " ++ event.levelColumn ++ " " ++ event.origin ++ ": " ++ event.body

def jsonLine (time : String) (event : Event) : String :=
  let details := event.details.map fun (name, detail) => (name, detail.json)
  Json.compact <| .object
    [("timestamp", .string time),
     ("level", .string event.level.label),
     ("fields", .object (Json.sortFields (("message", .string event.message) :: details))),
     ("target", .string event.origin)]

end Event

def timeText (moment : Moment) : String :=
  DateFormat.render "%Y-%m-%dT%H:%M:%S%.6fZ" moment

namespace LogSettings

def consoleLines (settings : LogSettings) (moment : Moment) (events : List Event) :
    List String :=
  (events.filter fun event => settings.console.shows event.level).map fun event =>
    match settings.form with
    | .text => event.consoleLine
    | .json => event.jsonLine (timeText moment)

def fileLines (settings : LogSettings) (moment : Moment) (events : List Event) : List String :=
  (events.filter fun event => settings.file.shows event.level).map fun event =>
    match settings.form with
    | .text => event.fileLine (timeText moment)
    | .json => event.jsonLine (timeText moment)

end LogSettings

end EnvInventory.Log
