import EnvInventory.Log.Event
import EnvInventory.Override.Ini
import EnvInventory.Override.Sandbox

/-!
# Events of scanning

While documents are scanned, every collision is reported where it is met, lines of a sandbox document
that have no known form are reported where they stand, and each document is reported at its end with
the number of settings found in it.
-/

namespace EnvInventory.Override

open Log (Event)

def Collision.event (collision : Collision) : Event :=
  ⟨.warn, "envdoc::extract::merge", "override name collision",
    [("env_name", .quoted collision.envName), ("existing", .bare collision.existing),
     ("incoming", .bare collision.incoming), ("source", .quoted collision.source)]⟩

/-- The events of the collisions that were added to an index. -/
def newCollisions {α : Type} (before after : Index α) : List Event :=
  (after.collisions.toList.drop before.collisions.size).map Collision.event

namespace Ini

/-- The part of the program that reports on INI documents. -/
def origin : String := "envdoc::extract::ini"

/-- The events of scanning documents behind those that an index holds already. -/
def eventsFrom : Index IniOverride → List Document → List Event
  | _, [] => []
  | index, document :: rest =>
      let found := candidates document
      let next := index.recordAll found
      newCollisions index next
        ++ ⟨.debug, origin, "scanned ini document",
            [("source", .quoted document.id), ("keys", .count found.length)]⟩
        :: eventsFrom next rest

def events (documents : List Document) : List Event :=
  eventsFrom Index.empty documents

end Ini

namespace Sandbox

/-- The part of the program that reports on sandbox documents. -/
def origin : String := "envdoc::extract::sandbox"

/-- The events of the lines of a document, and the index behind them. -/
def lineEvents (id : String) :
    Index SandboxOverride → List (List Char × Outcome) → List Event × Index SandboxOverride
  | index, [] => ([], index)
  | index, (line, outcome) :: rest =>
      let (events, next) :=
        match outcome with
        | .silent => ([], index)
        | .leaf path =>
            let next := index.record (SandboxOverride.ofPath path) id
            (newCollisions index next, next)
        | .ignored =>
            ([⟨.trace, origin, "ignored sandbox line",
                [("line", .quoted (String.ofList line))]⟩], index)
      let (more, last) := lineEvents id next rest
      (events ++ more, last)

/-- The events of scanning documents behind those that an index holds already. -/
def eventsFrom : Index SandboxOverride → List Document → List Event
  | _, [] => []
  | index, document :: rest =>
      let (events, next) := lineEvents document.id index (outcomes document.text)
      events
        ++ ⟨.debug, origin, "scanned sandbox document",
            [("source", .quoted document.id), ("leaves", .count (leaves document.text).length)]⟩
        :: eventsFrom next rest

def events (documents : List Document) : List Event :=
  eventsFrom Index.empty documents

end Sandbox

end EnvInventory.Override
