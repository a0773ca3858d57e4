import EnvInventory.FileTree
import EnvInventory.Ignore.Rule
import EnvInventory.Text.Parts

/-!
# Which ignore files apply

A path obeys the ignore files of the directory that holds it and of all directories above.  Of the
files of one kind the deepest one that says anything decides.  Files named `.ignore` always count and
go before the others; `.gitignore` files and the list of exclusions of a repository count only inside
a repository, and only up to its top directory.
-/

namespace EnvInventory.Ignore

open Text

def pathOf (location : Location) : String :=
  "/" ++ joinWith "/" location

def pathIn (directory : Location) (name : String) : String :=
  pathOf (directory ++ [name])

/-- Whether a directory is the top of a repository.  Directories that are searched may hold a
repository of either kind, those above the searched one only of the first. -/
def isRepository (tree : FileTree) (root directory : Location) : Bool :=
  tree.pathExists (pathIn directory ".git")
    || (root.isPrefixOf directory && tree.pathExists (pathIn directory ".jj"))

/-- The files of a directory that hold rules, the ones that count first in front. -/
def ruleFiles : List String :=
  [".ignore", ".gitignore", ".git/info/exclude"]

/-- The rules of a file; none if it cannot be read. -/
def rulesAt (tree : FileTree) (path : String) : List Rule :=
  match tree.readBytes path with
  | .ok content => readRules content
  | .error _ => []

/-- The directories above a location, the deepest first. -/
def directoriesAbove (location : Location) : List Location :=
  (List.range location.length).reverse.map location.take

/-- Directories up to and with the first one that satisfies a condition. -/
def upTo (isLast : Location → Bool) : List Location → List Location
  | [] => []
  | directory :: rest =>
      if isLast directory then [directory] else directory :: upTo isLast rest

/-- The verdict of the files with one name in directories, asked one after the other. -/
def verdictOf (tree : FileTree) (name : String) (location : Location) (isDirectory : Bool) :
    List Location → Verdict
  | [] => .silent
  | directory :: rest =>
      let path := Encoding.encodeUtf8 (joinWith "/" (location.drop directory.length))
      (verdict (rulesAt tree (pathIn directory name)) path isDirectory).orElse
        (verdictOf tree name location isDirectory rest)

/-- What all ignore files say about a location below the root of a search. -/
def scopeVerdict (tree : FileTree) (root location : Location) (isDirectory : Bool) : Verdict :=
  let directories := directoriesAbove location
  let ofFiles := fun name => verdictOf tree name location isDirectory
  let repository :=
    if directories.any (isRepository tree root) then upTo (isRepository tree root) directories
    else []
  (ofFiles ".ignore" directories).orElse
    ((ofFiles ".gitignore" repository).orElse (ofFiles ".git/info/exclude" repository))

end EnvInventory.Ignore
