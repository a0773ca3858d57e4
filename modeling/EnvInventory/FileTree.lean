import EnvInventory.Encoding.Utf8
import EnvInventory.Failure
import EnvInventory.Path
import EnvInventory.Text.Quoted

/-!
# File trees

A file tree says what stands at each location: a file with its content and mode, a directory, or a
symbolic link.  A location is the list of names that leads to it from the top directory.  Every
operation of the program on files is a function on such trees, and fails in the way in which the
operating system does.

Paths are looked up as the system does it: name by name from the working directory, two dots going
up from where the walk is, links being followed, and a slash behind a name asking for a directory.
The system sets three limits on one lookup: on the length of a name, on the number of links that are
followed, and on the length of the whole path, which is refused before the walk begins.
-/

namespace EnvInventory

open Encoding (Bytes)
open Text (joinWith splitAll)

/-- The names that lead from the top directory to a place. -/
abbrev Location := List String

/-- What stands at a location. -/
inductive Node where
  | file (content : Bytes) (mode : Nat)
  | directory (mode : Nat)
  | link (target : String)
deriving Repr, DecidableEq, Inhabited

/-- The nodes of a tree by location, and where relative paths start.  The top directory is always
there. -/
structure FileTree where
  workingDirectory : Location
  nodes : List (Location × Node)
deriving Repr, DecidableEq, Inhabited

namespace FileTree

def fileMode : Nat := 0o644

def directoryMode : Nat := 0o755

def node? (tree : FileTree) (location : Location) : Option Node :=
  if location = [] then some (.directory directoryMode)
  else (tree.nodes.find? fun entry => entry.1 == location).map Prod.snd

/-- Put a node at a location, in place of what stands there. -/
def put (tree : FileTree) (location : Location) (node : Node) : FileTree :=
  { tree with
    nodes := (location, node) :: tree.nodes.filter fun entry => entry.1 != location }

def erase (tree : FileTree) (location : Location) : FileTree :=
  { tree with nodes := tree.nodes.filter fun entry => entry.1 != location }

/-- Take away the node at a location and all nodes below it. -/
def eraseAll (tree : FileTree) (location : Location) : FileTree :=
  { tree with nodes := tree.nodes.filter fun entry => !location.isPrefixOf entry.1 }

/-- The nodes below a location, each with its names from there. -/
def below (tree : FileTree) (location : Location) : List (Location × Node) :=
  tree.nodes.filterMap fun (place, node) =>
    match location.isPrefixOf? place with
    | some (name :: names) => some (name :: names, node)
    | _ => none

/-! ### Looking up paths -/

/-- Where the walk along a path ends: at a node, or at a name that is missing in an existing
directory.  `slash` says that a slash stood behind the missing name. -/
inductive Resolution where
  | present (location : Location) (node : Node)
  | absent (parent : Location) (name : String) (slash : Bool)
deriving Repr, DecidableEq, Inhabited

/-- Why the walk along the parts of a path stops: at its end, or at a link whose target comes before
the remaining parts. -/
inductive Stop where
  | done (resolution : Resolution)
  | link (base : Location) (target : String) (rest : List (List Char))

def partsOf (path : String) : List (List Char) :=
  splitAll '/' path.toList

def isHere (part : List Char) : Bool :=
  part.isEmpty || part == ['.']

/-- Walk along parts from a directory.  A link at the very end is followed on request. -/
def descend (tree : FileTree) (followLast : Bool) :
    Location → List (List Char) → Except OsError Stop
  | location, [] =>
      .ok (.done (.present location ((tree.node? location).getD (.directory directoryMode))))
  | location, part :: rest =>
      if isHere part then descend tree followLast location rest
      else if part = ['.', '.'] then descend tree followLast location.dropLast rest
      else
        let name := String.ofList part
        if 255 < name.utf8ByteSize then .error .nameTooLong
        else
          match tree.node? (location ++ [name]) with
          | some (.directory _) => descend tree followLast (location ++ [name]) rest
          | some (.file content mode) =>
              if rest = [] then .ok (.done (.present (location ++ [name]) (.file content mode)))
              else .error .notDirectory
          | some (.link target) =>
              if rest = [] ∧ followLast = false then
                .ok (.done (.present (location ++ [name]) (.link target)))
              else .ok (.link location target rest)
          | none =>
              if rest.all isHere then .ok (.done (.absent location name (rest != [])))
              else .error .notFound

def startOf (base : Location) (path : String) : Location :=
  if Path.isAbsolute path then [] else base

/-- Walk along parts and follow up to the given number of links. -/
def follow (tree : FileTree) (followLast : Bool) :
    Nat → Location → List (List Char) → Except OsError Resolution
  | 0, _, _ => .error .linkLoop
  | links + 1, location, parts =>
      match tree.descend followLast location parts with
      | .error e => .error e
      | .ok (.done resolution) => .ok resolution
      | .ok (.link base target rest) =>
          tree.follow followLast links (startOf base target) (partsOf target ++ rest)

/-- Number of links that may be followed on one path. -/
def maxLinks : Nat := 40

/-- Number of bytes from which on a path is too long. -/
def pathLimit : Nat := 4096

/-- Whether the system refuses a path for its length, wherever it would lead. -/
def isTooLong (path : String) : Bool :=
  decide (pathLimit ≤ path.utf8ByteSize)

/-- Look up a path; a link at its very end is followed on request. -/
def resolve (tree : FileTree) (followLast : Bool) (path : String) :
    Except OsError Resolution :=
  if path = "" then .error .notFound
  else if path.toList.contains '\x00' then
    .error (.described "file name contained an unexpected NUL byte")
  else if isTooLong path then .error .nameTooLong
  else tree.follow followLast (maxLinks + 1) (startOf tree.workingDirectory path) (partsOf path)

def lookup (tree : FileTree) (path : String) : Except OsError (Location × Node) :=
  match tree.resolve true path with
  | .ok (.present location node) => .ok (location, node)
  | .ok (.absent _ _ _) => .error .notFound
  | .error e => .error e

/-! ### Questions -/

def pathExists (tree : FileTree) (path : String) : Bool :=
  match tree.lookup path with
  | .ok _ => true
  | .error _ => false

def isDirectory (tree : FileTree) (path : String) : Bool :=
  match tree.lookup path with
  | .ok (_, .directory _) => true
  | _ => false

def isFile (tree : FileTree) (path : String) : Bool :=
  match tree.lookup path with
  | .ok (_, .file _ _) => true
  | _ => false

def mode? (tree : FileTree) (path : String) : Option Nat :=
  match tree.lookup path with
  | .ok (_, .file _ mode) => some mode
  | .ok (_, .directory mode) => some mode
  | _ => none

/-- The content of the file a path leads to. -/
def readBytes (tree : FileTree) (path : String) : Except OsError Bytes :=
  match tree.lookup path with
  | .ok (_, .file content _) => .ok content
  | .ok _ => .error .isDirectory
  | .error e => .error e

/-- The text of the file a path leads to; it must be UTF-8. -/
def readText (tree : FileTree) (path : String) : Except OsError String :=
  match tree.readBytes path with
  | .error e => .error e
  | .ok content =>
      match Encoding.decodeUtf8? content with
      | some text => .ok text
      | none => .error .notUtf8

/-! ### Directories -/

def makeDirectory (tree : FileTree) (path : String) : Except OsError FileTree :=
  match tree.resolve false path with
  | .ok (.absent parent name _) => .ok (tree.put (parent ++ [name]) (.directory directoryMode))
  | .ok (.present _ _) => .error .exists
  | .error e => .error e

/-- Make a directory if there is none; the parent directory is there already. -/
def ensureDirectory (tree : FileTree) (path : String) : FileTree × Except OsError Unit :=
  match tree.makeDirectory path with
  | .ok tree => (tree, .ok ())
  | .error e => if tree.isDirectory path then (tree, .ok ()) else (tree, .error e)

/-- Make a directory and those above it that are missing.  What was made before a failure stays.
The fuel bounds the number of directories above. -/
def makeDirectoriesFrom : Nat → FileTree → String → FileTree × Except OsError Unit
  | 0, tree, path => tree.ensureDirectory path
  | fuel + 1, tree, path =>
      if path = "" then (tree, .ok ())
      else
        match tree.makeDirectory path with
        | .ok tree => (tree, .ok ())
        | .error .notFound =>
            match Path.parent? path with
            | none => (tree, .error (.described "failed to create whole tree"))
            | some parent =>
                match makeDirectoriesFrom fuel tree parent with
                | (tree, .error e) => (tree, .error e)
                | (tree, .ok ()) => tree.ensureDirectory path
        | .error e => if tree.isDirectory path then (tree, .ok ()) else (tree, .error e)

/-- Make a directory and those above it that are missing. -/
def makeDirectories (tree : FileTree) (path : String) : FileTree × Except OsError Unit :=
  makeDirectoriesFrom path.length tree path

/-! ### Writing -/

/-- Where a file can be opened for writing, with the node that stands there. -/
def openTarget (tree : FileTree) (path : String) :
    Except OsError (Location × Option (Bytes × Nat)) :=
  match tree.resolve true path with
  | .ok (.present location (.file content mode)) => .ok (location, some (content, mode))
  | .ok (.present _ _) => .error .isDirectory
  | .ok (.absent parent name slash) =>
      if slash then .error .isDirectory else .ok (parent ++ [name], none)
  | .error e => .error e

/-- Write a file in place; a file that is there keeps its mode. -/
def writeBytes (tree : FileTree) (path : String) (content : Bytes) : Except OsError FileTree :=
  match tree.openTarget path with
  | .ok (location, old) => .ok (tree.put location (.file content ((old.map Prod.snd).getD fileMode)))
  | .error e => .error e

/-- Write at the end of a file, which is made if it is missing. -/
def appendBytes (tree : FileTree) (path : String) (content : Bytes) : Except OsError FileTree :=
  match tree.openTarget path with
  | .ok (location, some (old, mode)) => .ok (tree.put location (.file (old ++ content) mode))
  | .ok (location, none) => .ok (tree.put location (.file content fileMode))
  | .error e => .error e

/-- The last part of a path and what stands before it; slashes at the end are dropped, and the last
component says whether there were any. -/
def lastPart (path : String) : List Char × List Char × Bool :=
  let reversed := path.toList.reverse
  let trimmed := reversed.dropWhile (· == '/')
  let name := (trimmed.takeWhile (· != '/')).reverse
  let before := (trimmed.dropWhile (· != '/')).reverse
  (before, name, reversed.head? == some '/')

/-- The location a file is renamed to: it may be missing or a file or a link, in a directory that is
there. -/
def renameTarget (tree : FileTree) (path : String) : Except OsError Location :=
  if path = "" then .error .notFound
  else if path.toList.contains '\x00' then .error (.described "Invalid argument (os error 22)")
  else if isTooLong path then .error .nameTooLong
  else
    let (before, name, slash) := lastPart path
    let directory := if before = [] then "." else String.ofList before
    if name = [] then .error .busy
    else
      match tree.lookup directory with
      | .error e => .error e
      | .ok (location, .directory _) =>
          if isHere name ∨ name = ['.', '.'] then .error .busy
          else if slash then .error .notDirectory
          else
            let target := location ++ [String.ofList name]
            if 255 < (String.ofList name).utf8ByteSize then .error .nameTooLong
            else
              match tree.node? target with
              | some (.directory _) => .error .isDirectory
              | _ => .ok target
      | .ok _ => .error .notDirectory

/-- A name that is not in use in a directory, made from a start by adding letters. -/
def freshName (tree : FileTree) (location : Location) : Nat → String → String
  | 0, name => name
  | tries + 1, name =>
      match tree.node? (location ++ [name]) with
      | none => name
      | some _ => freshName tree location tries (name ++ "x")

/-- A path seen from the top directory. -/
def absolute (tree : FileTree) (path : String) : String :=
  Path.join ("/" ++ joinWith "/" tree.workingDirectory) path

/-- Replace a file in one step: its directory is made if it is missing, the content is written to a
new file beside it, and that file is renamed over it.  The new file is made by its path from the top
directory, which must not be too long either, and has the mode of what it replaces.  When a step
fails, the new file is taken away again. -/
def replaceFile (tree : FileTree) (path : String) (content : Bytes) :
    FileTree × Except OsError Unit :=
  let directory :=
    match Path.parent? path with
    | some parent => if parent = "" then "." else parent
    | none => "."
  match tree.makeDirectories directory with
  | (tree, .error e) => (tree, .error e)
  | (tree, .ok ()) =>
      match tree.lookup directory with
      | .error e => (tree, .error e)
      | .ok (location, .directory _) =>
          let name := tree.freshName location (tree.nodes.length + 1) ".tmpxxxxxx"
          let beside := Path.join (tree.absolute directory) name
          if isTooLong beside then
            (tree, .error
              (.described (OsError.nameTooLong.message ++ " at path " ++ Text.quotedPath beside)))
          else
            let temporary := location ++ [name]
            let mode := (tree.mode? path).getD fileMode
            let written := tree.put temporary (.file content mode)
            match written.renameTarget path with
            | .ok target => ((written.erase temporary).put target (.file content mode), .ok ())
            | .error e => (written.erase temporary, .error e)
      | .ok _ => (tree, .error .notDirectory)

/-! ### Changes from outside -/

/-- Remove a file, a link, or a directory with all it holds. -/
def remove (tree : FileTree) (path : String) : Except OsError FileTree :=
  match tree.resolve false path with
  | .ok (.present location _) => .ok (tree.eraseAll location)
  | .ok (.absent _ _ _) => .error .notFound
  | .error e => .error e

def makeLink (tree : FileTree) (path target : String) : Except OsError FileTree :=
  if target = "" then .error .notFound
  else if isTooLong target then .error .nameTooLong
  else
    match tree.resolve false path with
    | .ok (.absent parent name _) => .ok (tree.put (parent ++ [name]) (.link target))
    | .ok (.present _ _) => .error .exists
    | .error e => .error e

def setMode (tree : FileTree) (path : String) (mode : Nat) : Except OsError FileTree :=
  match tree.lookup path with
  | .ok (location, .file content _) => .ok (tree.put location (.file content mode))
  | .ok (location, .directory _) => .ok (tree.put location (.directory mode))
  | .ok _ => .error .notFound
  | .error e => .error e

end FileTree

end EnvInventory
