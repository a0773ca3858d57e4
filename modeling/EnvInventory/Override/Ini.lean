import EnvInventory.Naming
import EnvInventory.Override.Index
import EnvInventory.Text.Blank

/-!
# INI keys

An INI document is read line by line.  A blank line and a line that starts with `;` or `#` say
nothing; `[name]` opens a section; `key = value` assigns a key of the open section; any other line
says nothing.  Each document starts outside every section.
-/

namespace EnvInventory.Override

open Text

/-- An INI key and the variable that overrides it. -/
structure IniOverride where
  envName : String
  sectionName : String
  key : String
  sources : List String
deriving Repr, DecidableEq, Inhabited

namespace IniOverride

/-- Record of a key without sources. -/
def ofKey (sectionName key : String) : IniOverride :=
  { envName := Naming.iniName sectionName key
    sectionName := sectionName
    key := key
    sources := [] }

/-- The key alone, or behind its section in brackets. -/
def identity (record : IniOverride) : String :=
  if record.sectionName = "" then record.key
  else "[" ++ record.sectionName ++ "] " ++ record.key

end IniOverride

instance : Mergeable IniOverride where
  envName := IniOverride.envName
  identity := IniOverride.identity
  sources := IniOverride.sources
  addSource record source := { record with sources := record.sources ++ [source] }
  envName_addSource _ _ := rfl
  identity_addSource _ _ := rfl
  sources_addSource _ _ := rfl

namespace Ini

/-- What one line of an INI document says. -/
inductive Line where
  | skip
  | heading (name : String)
  | assignment (key : String)
deriving Repr, DecidableEq, Inhabited

/-- Section named by a trimmed line that begins with a bracket; the brackets must hold at least one
character, and what follows them is of no account. -/
def heading? : List Char → Option String
  | '[' :: rest =>
      match splitFirst? ']' rest with
      | some (name, _) => if name = [] then none else some (String.ofList (trim name))
      | none => none
  | _ => none

/-- Key assigned by a trimmed line: what stands before the first equals sign, if anything does. -/
def assignedKey? (line : List Char) : Option String :=
  match splitFirst? '=' line with
  | some (key, _) => if key = [] then none else some (String.ofList (trim key))
  | none => none

/-- Whether a trimmed line is blank or a comment. -/
def isSilent : List Char → Bool
  | [] => true
  | c :: _ => c == ';' || c == '#'

/-- Classify a line as it stands in the document. -/
def classify (raw : List Char) : Line :=
  let line := trim raw
  if isSilent line then .skip
  else
    match heading? line with
    | some name => .heading name
    | none =>
        match assignedKey? line with
        | some key => .assignment key
        | none => .skip

/-- The keys assigned by the lines, each with the section open at its line. -/
def assignmentsIn : String → List (List Char) → List (String × String)
  | _, [] => []
  | sectionName, raw :: rest =>
      match classify raw with
      | .skip => assignmentsIn sectionName rest
      | .heading name => assignmentsIn name rest
      | .assignment key => (sectionName, key) :: assignmentsIn sectionName rest

/-- The section and key of every assignment of a text, in order. -/
def assignments (text : String) : List (String × String) :=
  assignmentsIn "" (lines text.toList)

def candidates (document : Document) : List (IniOverride × String) :=
  (assignments document.text).map fun (sectionName, key) =>
    (IniOverride.ofKey sectionName key, document.id)

/-- Scan documents in order and merge the keys that share a variable. -/
def extract (documents : List Document) : Merged IniOverride :=
  merge (documents.flatMap candidates)

end Ini

end EnvInventory.Override
