import Std.Data.HashMap

/-!
# Documents and the records that are merged from them

A document is the decoded text of a scanned file together with the identifier under which the
inventory lists it as a source.

Settings found in several documents are merged when they share the name of their environment
variable.  The first record for a name is kept; a later one only adds its document to the sources.
When the later one stands for another setting, two settings share a variable, and the clash is
reported as a collision as well.

`Index` keeps the records in the order of their first occurrence, and beside them the position of
each name.  `Index.record` is the only way to add to it.
-/

namespace EnvInventory

/-- A loaded text and its identifier. -/
structure Document where
  id : String
  text : String
deriving Repr, DecidableEq, Inhabited

namespace Override

/-- Records that are merged by the name of their variable. -/
class Mergeable (α : Type) where
  /-- Name of the environment variable. -/
  envName : α → String
  /-- The setting in the form shown to people. -/
  identity : α → String
  /-- Identifiers of the documents that contributed. -/
  sources : α → List String
  /-- Record one more contributing document. -/
  addSource : α → String → α
  /-- A further source leaves the name alone. -/
  envName_addSource : ∀ record source, envName (addSource record source) = envName record
  /-- A further source leaves the setting alone. -/
  identity_addSource : ∀ record source, identity (addSource record source) = identity record
  /-- Sources are kept in the order in which they are added. -/
  sources_addSource :
    ∀ record source, sources (addSource record source) = sources record ++ [source]

/-- Two different settings with one variable name. -/
structure Collision where
  envName : String
  /-- The setting that owns the name. -/
  existing : String
  /-- The setting that was merged into it. -/
  incoming : String
  /-- The document that contributed the incoming setting. -/
  source : String
deriving Repr, DecidableEq, Inhabited

/-- The merged records in the order of first occurrence, and the collisions met on the way. -/
structure Merged (α : Type) where
  overrides : List α
  collisions : List Collision
deriving Repr, DecidableEq

/-- Records under construction, with the position of each name. -/
structure Index (α : Type) where
  entries : Array α
  positions : Std.HashMap String Nat
  collisions : Array Collision

namespace Index

variable {α : Type} [Mergeable α]

/-- No record yet. -/
def empty : Index α :=
  ⟨#[], ∅, #[]⟩

/-- The collision of a record with the owner of its name, if they stand for different settings. -/
def collision? (existing candidate : α) (source : String) : Option Collision :=
  if Mergeable.identity existing = Mergeable.identity candidate then none
  else
    some
      { envName := Mergeable.envName existing
        existing := Mergeable.identity existing
        incoming := Mergeable.identity candidate
        source := source }

/-- Merge a candidate that a document contributed. -/
def record (index : Index α) (candidate : α) (source : String) : Index α :=
  match index.positions[Mergeable.envName candidate]? with
  | none =>
      { index with
        entries := index.entries.push (Mergeable.addSource candidate source)
        positions := index.positions.insert (Mergeable.envName candidate) index.entries.size }
  | some position =>
      match index.entries[position]? with
      | none => index
      | some existing =>
          { index with
            entries := index.entries.modify position (Mergeable.addSource · source)
            collisions :=
              index.collisions ++ (collision? existing candidate source).toArray }

/-- Merge candidates in order, each with the document that contributed it. -/
def recordAll (index : Index α) (candidates : List (α × String)) : Index α :=
  candidates.foldl (fun index (candidate, source) => index.record candidate source) index

def finish (index : Index α) : Merged α :=
  ⟨index.entries.toList, index.collisions.toList⟩

end Index

/-- Merge candidates from scratch, each with the document that contributed it. -/
def merge {α : Type} [Mergeable α] (candidates : List (α × String)) : Merged α :=
  (Index.empty.recordAll candidates).finish

end Override

end EnvInventory
