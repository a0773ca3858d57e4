import EnvInventory.Naming
import EnvInventory.Override.Index
import EnvInventory.Text.Blank
import EnvInventory.Text.Parts

/-!
# Leaves of the sandbox table

The sandbox settings are a nested table that starts at a line `SandboxVars = {`.  It is read line by
line: `name = {` opens a subtable, a closing brace with or without a comma ends the innermost open
table, and `name = value` is a leaf, also when the value is a whole table on one line.  Blank lines
and lines that start with `--` say nothing.  Outside the table only its opening line counts.

The scanner's state inside the table is the number of open braces and the names of the open
subtables, the outermost first.
-/

namespace EnvInventory.Override

open Text

/-- A leaf of the sandbox table and the variable that overrides it. -/
structure SandboxOverride where
  envName : String
  /-- Path below the table, with dots between the segments. -/
  path : String
  sources : List String
deriving Repr, DecidableEq, Inhabited

namespace SandboxOverride

/-- Record of a leaf without sources. -/
def ofPath (segments : List String) : SandboxOverride :=
  { envName := Naming.sandboxName segments
    path := joinWith "." segments
    sources := [] }

end SandboxOverride

instance : Mergeable SandboxOverride where
  envName := SandboxOverride.envName
  identity := SandboxOverride.path
  sources := SandboxOverride.sources
  addSource record source := { record with sources := record.sources ++ [source] }
  envName_addSource _ _ := rfl
  identity_addSource _ _ := rfl
  sources_addSource _ _ := rfl

namespace Sandbox

def isNameChar (c : Char) : Bool :=
  c.isAlphanum || c == '_'

/-! ### Forms of a line -/

/-- Name before an equals sign, and what follows the sign. -/
def assigned? (line : List Char) : Option (String × List Char) :=
  let name := line.takeWhile isNameChar
  if name = [] then none
  else
    match (line.dropWhile isNameChar).dropWhile isBlank with
    | '=' :: rest => some (String.ofList name, rest)
    | _ => none

/-- Whether a text is an opening brace with only blanks around it. -/
def isBrace (text : List Char) : Bool :=
  match text.dropWhile isBlank with
  | '{' :: rest => rest.all isBlank
  | _ => false

def opensTable (line : List Char) : Bool :=
  match dropStart? "SandboxVars" line with
  | none => false
  | some rest =>
      match rest.dropWhile isBlank with
      | '=' :: rest => isBrace rest
      | _ => false

/-- A closing brace, perhaps with a comma. -/
def closesTable : List Char → Bool
  | '}' :: rest =>
      match rest.dropWhile isBlank with
      | ',' :: rest => rest.all isBlank
      | rest => rest.isEmpty
  | _ => false

def opensSubtable? (line : List Char) : Option String :=
  match assigned? line with
  | some (name, rest) => if isBrace rest then some name else none
  | none => none

/-- Name of the leaf a line assigns; some value must stand behind the equals sign. -/
def assignsLeaf? (line : List Char) : Option String :=
  match assigned? line with
  | some (name, rest) => if rest = [] then none else some name
  | none => none

/-! ### The scanner -/

/-- Where the scanner is: outside the table, or inside it with a number of open braces and the names
of the open subtables, the outermost first. -/
inductive State where
  | outside
  | inside (depth : Nat) (path : List String)
deriving Repr, DecidableEq, Inhabited

/-- What the scanner made of a line: nothing to report, a leaf with its path, or a line inside the
table that has none of the known forms. -/
inductive Outcome where
  | silent
  | leaf (path : List String)
  | ignored
deriving Repr, DecidableEq, Inhabited

/-- Feed one trimmed line that is neither blank nor a comment. -/
def feed : State → List Char → State × Outcome
  | .outside, line => (if opensTable line then .inside 1 [] else .outside, .silent)
  | .inside depth path, line =>
      if closesTable line then
        (if depth - 1 = 0 then .outside else .inside (depth - 1) path.dropLast, .silent)
      else
        match opensSubtable? line with
        | some name => (.inside (depth + 1) (path ++ [name]), .silent)
        | none =>
            match assignsLeaf? line with
            | some name => (.inside depth path, .leaf (path ++ [name]))
            | none => (.inside depth path, .ignored)

/-- Whether a trimmed line is blank or a comment. -/
def isSilent (line : List Char) : Bool :=
  line.isEmpty || (dropStart? "--" line).isSome

/-- The trimmed lines of a text that are neither blank nor comments. -/
def spokenLines (text : String) : List (List Char) :=
  ((lines text.toList).map trim).filter fun line => !isSilent line

/-- Feed lines in order; the state after the last one, and each line with its outcome. -/
def scan : State → List (List Char) → State × List (List Char × Outcome)
  | state, [] => (state, [])
  | state, line :: rest =>
      let (next, outcome) := feed state line
      let (last, outcomes) := scan next rest
      (last, (line, outcome) :: outcomes)

/-- Each spoken line of a text with its outcome. -/
def outcomes (text : String) : List (List Char × Outcome) :=
  (scan .outside (spokenLines text)).2

def Outcome.leaf? : Outcome → Option (List String)
  | .leaf path => some path
  | _ => none

/-- The paths of the leaves of a text, in order. -/
def leaves (text : String) : List (List String) :=
  (outcomes text).filterMap fun (_, outcome) => outcome.leaf?

def candidates (document : Document) : List (SandboxOverride × String) :=
  (leaves document.text).map fun path => (SandboxOverride.ofPath path, document.id)

/-- Scan documents in order and merge the leaves that share a variable. -/
def extract (documents : List Document) : Merged SandboxOverride :=
  merge (documents.flatMap candidates)

end Sandbox

end EnvInventory.Override
