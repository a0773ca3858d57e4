import EnvInventory.Text.Parts

/-!
# Names of override variables

A setting of the server can be overridden by an environment variable whose name is derived from the
setting.  There are two conventions.

* An INI key is `INIVARS_Key`, or `INIVARS_Section__Key` when it stands in a section.
* A leaf of the sandbox table is `SANDBOXVARS_` followed by the segments of its path with a single
  underscore between them; an underscore inside a segment is written twice.

Case is preserved throughout.  Neither convention is injective on all settings: `["A_", "B"]` and
`["A", "_B"]` are both `SANDBOXVARS_A___B`.  Readers of names go from left to right, so they give
back one of the settings a name may stand for.
-/

namespace EnvInventory.Naming

open Text

def iniMark : String := "INIVARS_"

def sandboxMark : String := "SANDBOXVARS_"

/-- Between the section and the key of an INI name. -/
def sectionMark : String := "__"

/-! ### Writing names -/

/-- Name of an INI key; the empty section stands for keys outside every section. -/
def iniName (sectionName key : String) : String :=
  if sectionName = "" then iniMark ++ key
  else iniMark ++ sectionName ++ sectionMark ++ key

/-- A segment with each underscore written twice. -/
def encodeSegment : List Char → List Char
  | [] => []
  | c :: rest =>
      if c = '_' then '_' :: '_' :: encodeSegment rest else c :: encodeSegment rest

/-- The encoded segments with one underscore between neighbours. -/
def encodePath : List (List Char) → List Char
  | [] => []
  | [segment] => encodeSegment segment
  | segment :: rest => encodeSegment segment ++ '_' :: encodePath rest

def sandboxName (path : List String) : String :=
  sandboxMark ++ String.ofList (encodePath (path.map String.toList))

/-! ### Reading names -/

def splitSection? : List Char → Option (List Char × List Char)
  | [] => none
  | '_' :: '_' :: rest => some ([], rest)
  | c :: rest => (splitSection? rest).map fun (before, after) => (c :: before, after)

/-- Section and key of an INI name, divided at the first double underscore.  A name without one
belongs to the empty section; a name with an empty key is refused. -/
def decodeIniName? (name : String) : Option (String × String) :=
  match dropStart? iniMark name.toList with
  | none => none
  | some rest =>
      let parts := (splitSection? rest).getD ([], rest)
      if parts.2 = [] then none
      else some (String.ofList parts.1, String.ofList parts.2)

/-- Segments of an encoded path, from left to right: a double underscore is a literal one, a single
underscore ends the segment. -/
def decodePath : List Char → List (List Char)
  | [] => [[]]
  | '_' :: '_' :: rest => consHead '_' (decodePath rest)
  | '_' :: rest => [] :: decodePath rest
  | c :: rest => consHead c (decodePath rest)

/-- Path of a sandbox name; a name with an empty segment is refused. -/
def decodeSandboxName? (name : String) : Option (List String) :=
  match dropStart? sandboxMark name.toList with
  | none => none
  | some rest =>
      let segments := decodePath rest
      if segments.any List.isEmpty then none
      else some (segments.map String.ofList)

end EnvInventory.Naming
