import Std.Time.DateTime.Timestamp
import EnvInventory.Program

/-!
# Running on a disk

The program works on file trees.  Here the part of the disk that a run looks at is read into a tree,
the program is run on it, and what it changed is written back.  Files of the searched directory are
read without their content first, since most of them are never looked into.
-/

namespace EnvInventory.Disk

def pathOf (location : Location) : String :=
  Ignore.pathOf location

/-- What stands at a location on the disk, a file without its content unless that is wanted. -/
def readNode (location : Location) (withContent : Bool) : IO (Option Node) := do
  let path := (← IO.currentDir) / pathOf location
  match ← path.symlinkMetadata.toBaseIO with
  | .error _ => return none
  | .ok metadata =>
      match metadata.type with
      | .dir => return some (.directory FileTree.directoryMode)
      | .symlink =>
          match ← (IO.FS.realPath path).toBaseIO with
          | .ok target => return some (.link target.toString)
          | .error _ => return some (.link "/nonexistent")
      | .file =>
          let content ← if withContent then IO.FS.readBinFile path else pure ByteArray.empty
          return some (.file content.toList FileTree.fileMode)
      | .other => return none

/-- Read what stands along a path, following links. -/
partial def fetchParts (tree : FileTree) (location : Location) :
    List (List Char) → IO FileTree
  | [] => return tree
  | part :: rest => do
      if FileTree.isHere part then fetchParts tree location rest
      else if part = ['.', '.'] then fetchParts tree location.dropLast rest
      else
        let place := location ++ [String.ofList part]
        match ← readNode place true with
        | none => return tree
        | some (.link target) =>
            fetchParts (tree.put place (.link target)) [] (FileTree.partsOf target ++ rest)
        | some node => fetchParts (tree.put place node) place rest

def fetch (tree : FileTree) (path : String) : IO FileTree :=
  fetchParts tree (FileTree.startOf tree.workingDirectory path) (FileTree.partsOf path)

def fetchAll (tree : FileTree) (paths : List String) : IO FileTree :=
  paths.foldlM fetch tree

/-- Read everything below a directory, of files only those that hold ignore rules with their
content. -/
partial def fetchBelow (tree : FileTree) (location : Location) : IO FileTree := do
  let path := (← IO.currentDir) / pathOf location
  let mut tree := tree
  for entry in ← path.readDir do
    let place := location ++ [entry.fileName]
    let isRules := Ignore.ruleFiles.any fun name => name.endsWith entry.fileName
    if let some node ← readNode place isRules then
      tree := tree.put place node
      if Search.isDirectoryNode node then tree ← fetchBelow tree place
  return tree

/-- Read the directory that is searched, with the ignore rules above it if they count. -/
def fetchSources (tree : FileTree) (config : Config) : IO FileTree := do
  let tree ← fetch tree config.paths.sourcesDir
  match tree.lookup config.paths.sourcesDir with
  | .ok (location, .directory _) =>
      let above := if config.discovery.respectGitignore then Ignore.directoriesAbove location else []
      let tree ← fetchAll tree (above.flatMap fun place =>
        (".git" :: Ignore.ruleFiles).map (Ignore.pathIn place))
      fetchBelow tree location
  | _ => return tree

def load (tree : FileTree) (invocation : Invocation) : IO FileTree := do
  match CommandLine.read invocation.words with
  | .error _ => return tree
  | .ok arguments =>
      let tree ← fetchAll tree (Program.settingsPaths tree arguments.global)
      let overrides := arguments.outputOptions.overrides
      match (Program.config tree arguments.global overrides invocation.environment).outcome with
      | .error _ => return tree
      | .ok config =>
          let tree ← fetchSources tree config
          match (SourcePlan.discover tree config).outcome with
          | .error _ => fetchAll tree (Program.configuredPaths config)
          | .ok plan =>
              fetchAll tree (Program.configuredPaths config ++ Program.plannedPaths plan)

/-- Write one changed node.  A file that is there is written in place, which keeps its mode. -/
def writeNode (location : Location) (old : Option Node) : Node → IO Unit
  | .directory _ => IO.FS.createDir (pathOf location)
  | .link _ => return ()
  | .file content _ => do
      match old with
      | some (.file before _) =>
          match before.isPrefixOf? content with
          | some added =>
              let handle ← IO.FS.Handle.mk (pathOf location) .append
              handle.write (ByteArray.mk added.toArray)
          | none => IO.FS.writeBinFile (pathOf location) (ByteArray.mk content.toArray)
      | _ =>
          let path := pathOf location
          IO.FS.writeBinFile (path ++ ".tmp") (ByteArray.mk content.toArray)
          IO.FS.rename (path ++ ".tmp") path

/-- Write all that a run changed, what is nearer to the top first. -/
def store (before after : FileTree) : IO Unit := do
  let changed := after.nodes.filter fun (location, node) => before.node? location != some node
  for (location, node) in changed.mergeSort fun a b => a.1.length ≤ b.1.length do
    writeNode location (before.node? location) node

/-- The environment variables of this process, in their order. -/
def environment : IO Environment := do
  let bytes ← IO.FS.readBinFile "/proc/self/environ"
  let text := Encoding.decodeUtf8Lossy bytes.toList
  return (Text.splitAll '\x00' text.toList).filterMap fun entry =>
    (Text.splitFirst? '=' entry).map fun (name, value) =>
      (String.ofList name, String.ofList value)

def now : IO Moment := do
  let timestamp ← Std.Time.Timestamp.now
  let nanoseconds := timestamp.toNanosecondsSinceUnixEpoch.toInt
  return ⟨Int.fdiv nanoseconds 1000000000, (Int.fmod nanoseconds 1000000000).toNat⟩

/-- An empty tree that starts at the working directory of this process. -/
def emptyTree : IO FileTree := do
  let path ← IO.currentDir
  let names := (FileTree.partsOf path.toString).filter fun part => !FileTree.isHere part
  let location := names.map String.ofList
  let directories := (List.range location.length).map fun count =>
    (location.take (count + 1), Node.directory FileTree.directoryMode)
  return ⟨location, directories⟩

def run (words : List String) : IO UInt32 := do
  let invocation : Invocation := ⟨words, ← environment, ← now⟩
  let before ← load (← emptyTree) invocation
  let completion := Program.run before invocation
  store before completion.tree
  IO.print completion.output
  for line in completion.errorLines do
    IO.eprintln line
  if let some usage := completion.usage then
    IO.eprintln usage.message
  return completion.exitCode.toUInt32

end EnvInventory.Disk

def main (words : List String) : IO UInt32 :=
  EnvInventory.Disk.run words
