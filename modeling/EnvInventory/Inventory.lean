import EnvInventory.Json.Read
import EnvInventory.Override.Report
import EnvInventory.Script.Shell
import EnvInventory.Script.Template
import EnvInventory.Sources

/-!
# Making the inventory

The inventory is built from the files of a plan: every source is scanned, and the findings are
assembled into a snapshot.  The snapshot is then written to its file, or compared with the one that
is there.
-/

namespace EnvInventory

open Log (Traced Event)

namespace Inventory

/-- The part of the program that reports on building. -/
def buildOrigin : String := "envdoc::cmd::generate"

/-- The part of the program that reports on the file. -/
def outputOrigin : String := "envdoc::output"

/-! ### Building -/

def snapshotOf (config : Config) (generatedAt : String) (plan : SourcePlan)
    (loaded : LoadedSources) : Snapshot :=
  Snapshot.assemble generatedAt plan.sourceInfo config.generate.imageTag
    (Script.externalReferences loaded.entry.text)
    ((loaded.envTemplate.map fun template => Script.documentedKeys template.text).getD [])
    (Override.Ini.extract loaded.ini).overrides
    (Override.Sandbox.extract loaded.lua).overrides

def scanEvents (loaded : LoadedSources) : List Event :=
  let text := loaded.entry.text
  let clashes :=
    (Override.Ini.extract loaded.ini).collisions.length
      + (Override.Sandbox.extract loaded.lua).collisions.length
  ⟨.debug, "envdoc::extract::shell", "scanned shell script",
      [("referenced", .count (Script.referencedNames text).length),
       ("bound", .count (Script.boundNames text).length)]⟩
    :: Override.Ini.events loaded.ini
    ++ Override.Sandbox.events loaded.lua
    ++ if clashes = 0 then []
       else
         [⟨.warn, buildOrigin,
           "distinct keys share an environment variable name; the first occurrence is documented",
           [("count", .count clashes)]⟩]

def snapshotEvents (snapshot : Snapshot) : List Event :=
  (snapshot.undocumented.map fun var =>
      ⟨.debug, buildOrigin, "handcrafted variable missing from env template",
        [("name", .bare var.name)]⟩)
    ++ [⟨.info, buildOrigin, "built snapshot",
        [("mode", .bare snapshot.sources.mode.label),
         ("handcrafted", .count snapshot.handcrafted.length),
         ("undocumented", .count snapshot.undocumented.length),
         ("ini", .count snapshot.ini.length),
         ("lua", .count snapshot.sandbox.length)]⟩]

def inContext (context : Context) (error : SourceError) : Report :=
  ⟨some context, .source error⟩

/-- Scan all sources and build the snapshot. -/
def build (tree : FileTree) (config : Config) (generatedAt : String) :
    Traced Report Snapshot := do
  let plan ← (SourcePlan.discover tree config).mapError (inContext .discovery)
  let loaded ← (plan.load tree).mapError (inContext .reading)
  let snapshot := snapshotOf config generatedAt plan loaded
  Traced.reportAll (scanEvents loaded ++ snapshotEvents snapshot)
  pure snapshot

/-! ### The file -/

/-- Write a text as the inventory file, replacing in one step what is there. -/
def write (tree : FileTree) (path content : String) :
    FileTree × Traced OutputError Unit :=
  match tree.replaceFile path (Encoding.encodeUtf8 content) with
  | (tree, .ok ()) =>
      (tree, Traced.report ⟨.info, outputOrigin, "wrote snapshot",
        [("path", .bare path), ("bytes", .count content.utf8ByteSize)]⟩)
  | (tree, .error cause) => (tree, Traced.of (.error (.writeFailed path cause)))

/-- Make sure that the inventory file holds a snapshot, its date apart. -/
def check (tree : FileTree) (path : String) (snapshot : Snapshot) : Traced OutputError Unit :=
  match tree.readText path with
  | .error .notFound => Traced.of (.error (.missing path))
  | .error cause => Traced.of (.error (.readFailed path cause))
  | .ok text =>
      match Json.read? text with
      | none => do
          Traced.report ⟨.debug, outputOrigin, "existing output is not valid JSON",
            [("path", .bare path)]⟩
          Traced.of (.error (.stale path))
      | some document =>
          if snapshot.agreesWith document then
            Traced.report ⟨.debug, outputOrigin, "snapshot is up to date", [("path", .bare path)]⟩
          else Traced.of (.error (.stale path))

end Inventory

end EnvInventory
