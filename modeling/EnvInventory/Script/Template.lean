import EnvInventory.Text.Blank
import EnvInventory.Text.Parts

/-!
# Variables and the template that documents them

The variables of the entry script and of the environment template are written in capitals: a letter
followed by letters, digits and underscores.  The template documents a variable by a line that,
behind any blanks, starts with the name directly followed by an equals sign.
-/

namespace EnvInventory.Script

open Text

def isNameStart (c : Char) : Bool :=
  c.isUpper

def isNameChar (c : Char) : Bool :=
  c.isUpper || c.isDigit || c == '_'

/-- The longest variable name at the start of a text, and what follows it. -/
def nameAt? : List Char → Option (List Char × List Char)
  | [] => none
  | c :: rest =>
      if isNameStart c then some (c :: rest.takeWhile isNameChar, rest.dropWhile isNameChar)
      else none

def documentedKey? (line : List Char) : Option String :=
  match nameAt? (line.dropWhile isBlank) with
  | some (name, '=' :: _) => some (String.ofList name)
  | _ => none

/-- The variables a template documents, in ascending order. -/
def documentedKeys (text : String) : List String :=
  sortedNames ((lines text.toList).filterMap documentedKey?)

end EnvInventory.Script
