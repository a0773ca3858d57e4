import EnvInventory.Script.Template
import EnvInventory.Text.Blank
import EnvInventory.Text.Parts
import EnvInventory.Text.Word

/-!
# References of a shell script

The entry script is scanned as text, without regard to control flow.  It references the names in
`$NAME` and `${NAME}`, and binds names by an assignment at the start of a line, by
`for NAME in` and by `local NAME`.  A name that is bound anywhere counts as local everywhere, so the
script expects from its environment the names it references and does not bind.  Expansions with an
operator inside the braces are not references.
-/

namespace EnvInventory.Script

open Text

/-- A find at a position: the name, and the characters from the position to the end of the find. -/
def found (name text rest : List Char) : String × Nat :=
  (String.ofList name, text.length - rest.length)

/-- A dollar sign with a name behind it, bare or in braces. -/
def referenceAt : Pattern String
  | _, '$' :: '{' :: text =>
      match nameAt? text with
      | some (name, '}' :: _) => some (String.ofList name, name.length + 3)
      | _ => none
  | _, '$' :: text =>
      match nameAt? text with
      | some (name, _) => some (String.ofList name, name.length + 1)
      | none => none
  | _, _ => none

/-- At the start of a line, any blanks, line ends included, and a name directly followed by an
equals sign. -/
def assignmentAt : Pattern String
  | before, text =>
      if before = none ∨ before = some '\n' then
        match nameAt? (text.dropWhile isBlank) with
        | some (name, '=' :: rest) => some (found name text rest)
        | _ => none
      else none

/-- What follows a keyword that starts at this position with no word character before it and is
followed by at least one blank; the blanks are dropped. -/
def keywordAt? (keyword : String) (before : Option Char) (text : List Char) :
    Option (List Char) :=
  if isWordAt before then none
  else
    match dropStart? keyword text with
    | some (c :: rest) => if isBlank c then some (rest.dropWhile isBlank) else none
    | _ => none

/-- The word `for`, a name and the word `in`, with blanks between them. -/
def loopAt : Pattern String
  | before, text =>
      match keywordAt? "for" before text with
      | none => none
      | some afterFor =>
          match nameAt? afterFor with
          | some (name, c :: rest) =>
              if isBlank c then
                match dropStart? "in" (rest.dropWhile isBlank) with
                | some afterIn =>
                    if isWordAt afterIn.head? then none else some (found name text afterIn)
                | none => none
              else none
          | _ => none

/-- The word `local` and a whole word that is a name, with blanks between them. -/
def localAt : Pattern String
  | before, text =>
      match keywordAt? "local" before text with
      | none => none
      | some afterLocal =>
          match nameAt? afterLocal with
          | some (name, rest) =>
              if isWordAt rest.head? then none else some (found name text rest)
          | none => none

/-- The names a script references, in ascending order. -/
def referencedNames (text : String) : List String :=
  sortedNames (findAll referenceAt text.toList)

/-- The names a script binds by an assignment at the start of a line, in order of occurrence. -/
def assignedNames (text : String) : List String :=
  findAll assignmentAt text.toList

/-- The names a script binds, in ascending order. -/
def boundNames (text : String) : List String :=
  sortedNames
    (assignedNames text ++ findAll loopAt text.toList ++ findAll localAt text.toList)

/-- The names a script expects from its environment, in ascending order. -/
def externalReferences (text : String) : List String :=
  let bound := boundNames text
  (referencedNames text).filter fun name => !bound.contains name

end EnvInventory.Script
