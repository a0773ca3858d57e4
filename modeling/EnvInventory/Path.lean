import EnvInventory.Text.Parts

/-!
# Paths

A path is kept as the text in which it was given, and compared by its components.  Repeated and
trailing slashes make no components, and neither does a single dot, except at the very start of a
relative path.  Two dots are a component of their own and are never resolved here.

`sourceId` gives the identifier under which the inventory lists a file: its path below the
repository root, whatever the spelling of either.
-/

namespace EnvInventory.Path

open Text

/-- A component of a path. -/
inductive Component where
  | root
  | current
  | parent
  | normal (name : String)
deriving Repr, DecidableEq, Inhabited

/-- Whether a path starts at the root directory. -/
def isAbsolute (path : String) : Bool :=
  path.toList.head? == some '/'

/-- The component a part between slashes stands for, anywhere but at the start. -/
def partComponent? (part : List Char) : Option Component :=
  if part = [] ∨ part = ['.'] then none
  else if part = ['.', '.'] then some .parent
  else some (.normal (String.ofList part))

def components (path : String) : List Component :=
  let parts := splitAll '/' path.toList
  if isAbsolute path then .root :: parts.filterMap partComponent?
  else
    match parts with
    | ['.'] :: rest => .current :: rest.filterMap partComponent?
    | _ => parts.filterMap partComponent?

/-- A path seen from a root: an absolute path is itself, a relative one is put behind the root with
a slash between them unless the root is empty or ends in one. -/
def join (root path : String) : String :=
  if isAbsolute path then path
  else if root = "" ∨ root.toList.getLast? = some '/' then root ++ path
  else root ++ "/" ++ path

/-! ### Identifiers of sources -/

/-- The components behind those of the root, if the path begins with them. -/
def stripRoot? (root path : List Component) : Option (List Component) :=
  root.isPrefixOf? path

/-- The text of a component in an identifier; a leading dot has none. -/
def idPart? : Component → Option String
  | .root => some ""
  | .current => none
  | .parent => some ".."
  | .normal name => some name

/-- The components of an identifier with slashes between them. -/
def idText (components : List Component) : String :=
  joinWith "/" (components.filterMap idPart?)

/-- The text of a path without any named component. -/
def bareText : List Component → String
  | [.root] => "/"
  | [.current] => "."
  | _ => ""

/-- Identifier of a file: its components below the root, or all its components when it lies
elsewhere.  A path without named components keeps its text. -/
def sourceId (root path : String) : String :=
  match stripRoot? (components root) (components path) with
  | some rest => if idText rest = "" then bareText rest else idText rest
  | none => if idText (components path) = "" then path else idText (components path)

/-! ### The directory above -/

/-- Whether a part between slashes makes no component. -/
def isVoidPart (part : List Char) : Bool :=
  part.isEmpty || part == ['.']

/-- Drop the last parts as long as they make no component. -/
def dropVoidParts (parts : List (List Char)) : List (List Char) :=
  (parts.reverse.dropWhile isVoidPart).reverse

def joinParts : List (List Char) → List Char
  | [] => []
  | [part] => part
  | part :: rest => part ++ '/' :: joinParts rest

/-- The path without its last component, in the spelling of the path; none if there is no component
to drop, or only the root directory. -/
def parent? (path : String) : Option String :=
  let (start, body) :=
    match path.toList with
    | '/' :: rest => (['/'], rest)
    | '.' :: '/' :: rest => (['.'], '/' :: rest)
    | ['.'] => (['.'], [])
    | text => ([], text)
  match dropVoidParts (splitAll '/' body) with
  | [] => if start = ['.'] then some "" else none
  | parts => some (String.ofList (start ++ joinParts (dropVoidParts parts.dropLast)))

/-! ### Order -/

/-- Order of paths that are given by their names: by the first name that differs, each by code
point, and a path before those that continue it. -/
def namesLE : List String → List String → Bool
  | [], _ => true
  | _ :: _, [] => false
  | a :: as, b :: bs => if a = b then namesLE as bs else decide (a < b)

end EnvInventory.Path
