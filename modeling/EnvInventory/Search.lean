import EnvInventory.Config.Basic
import EnvInventory.FileTree
import EnvInventory.Glob.Match
import EnvInventory.Glob.Rules
import EnvInventory.Ignore.Scope
import EnvInventory.Log.Traced

/-!
# Searching a directory

A search goes through everything below a directory and answers the regular files whose path from
there matches a glob.  Links are neither followed nor answered, except that the directory itself may
be given by one.  What is hidden or ignored is left out with everything below it.

Entries may be delivered in any order; `collect` sorts what it selects by names, so the order never
shows.
-/

namespace EnvInventory.Search

open Log (Traced)
open Text

/-- The part of the program that reports the events of this module. -/
def origin : String := "envdoc::sources::walk"

/-- What a search leaves out. -/
structure Options where
  includeHidden : Bool := true
  respectGitignore : Bool := false
deriving Repr, DecidableEq, Inhabited

/-- The options that a configuration asks for. -/
def Options.ofConfig (config : DiscoveryConfig) : Options :=
  { includeHidden := config.includeHidden
    respectGitignore := config.respectGitignore }

/-- Something below the searched directory, with the names that lead to it from there. -/
structure Entry where
  names : List String
  node : Node
deriving Repr, DecidableEq, Inhabited

def isDirectoryNode : Node → Bool
  | .directory _ => true
  | _ => false

def isFileNode : Node → Bool
  | .file _ _ => true
  | _ => false

def isHiddenName (name : String) : Bool :=
  name.toList.head? == some '.'

/-- Whether the names, as those of a file or a directory below the root, are left out by themselves.
A path that an ignore file keeps is not left out for being hidden. -/
def leavesOut (tree : FileTree) (root : Location) (options : Options) (names : List String)
    (isDirectory : Bool) : Bool :=
  let verdict :=
    if options.respectGitignore then
      Ignore.scopeVerdict tree root (root ++ names) isDirectory
    else .silent
  match verdict with
  | .ignored => true
  | .kept => false
  | .silent => !options.includeHidden && names.getLast?.any isHiddenName

/-- Whether a search reaches an entry: neither it nor a directory on the way is left out. -/
def reaches (tree : FileTree) (root : Location) (options : Options) (entry : Entry) : Bool :=
  !leavesOut tree root options entry.names (isDirectoryNode entry.node)
    && (List.range entry.names.length).all fun count =>
      count == 0 || !leavesOut tree root options (entry.names.take count) true

/-- The entries that a search reaches below the root.  Every directory that is not left out is entered,
however long its path. -/
def entries (tree : FileTree) (root : Location) (options : Options) : List Entry :=
  ((tree.below root).map fun (names, node) => ⟨names, node⟩).filter (reaches tree root options)

/-- Whether an entry is a file whose path from the root matches a glob. -/
def selects (glob : Glob) (entry : Entry) : Bool :=
  isFileNode entry.node && Glob.isMatch glob (joinWith "/" entry.names)

/-- The names of the selected entries, in the order of paths. -/
def collect (glob : Glob) (delivered : List Entry) : List (List String) :=
  ((delivered.filter (selects glob)).map Entry.names).mergeSort Path.namesLE

def extend (root : String) (names : List String) : String :=
  names.foldl Path.join root

/-- The files below a directory that match a glob, each with the path of the directory in front. -/
def findFiles (tree : FileTree) (root pattern : String) (options : Options) :
    Traced SourceError (List String) :=
  match tree.lookup root with
  | .ok (location, .directory _) =>
      match Glob.read? pattern with
      | none =>
          Traced.of (.error (.discovery root (.invalidGlob pattern "malformed glob expression")))
      | some glob => do
          let found := collect glob (entries tree location options)
          Traced.report ⟨.debug, origin, "searched sources directory",
            [("root", .bare root), ("pattern", .quoted pattern), ("found", .count found.length),
             ("errors", .count 0)]⟩
          pure (found.map (extend root))
  | _ => Traced.of (.error (.discovery root .notDirectory))

end EnvInventory.Search
