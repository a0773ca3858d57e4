import EnvInventory.Settings.Value

/-!
# Tables of a TOML document under construction

Headers and dotted keys build a tree of tables.  A table remembers how it came about, because that
decides how it may be extended: a header may open a table only once, dotted keys may extend only
tables that no header has opened, and values, among them tables between braces, are closed.
-/

namespace EnvInventory.Toml

open Settings (Value field? setField)

/-- How a table came about. -/
inductive Origin where
  /-- On the way to a table further down. -/
  | passed
  /-- On the way of a dotted key. -/
  | dotted
  /-- By a header of its own. -/
  | opened
deriving Repr, DecidableEq, Inhabited

/-- A part of the document. -/
inductive Item where
  | value (value : Value)
  | table (origin : Origin) (fields : List (String × Item))
  /-- A list of tables that headers extend; the last one is open. -/
  | tables (items : List (List (String × Item)))
deriving Inhabited

/-- The fields of a table. -/
abbrev Fields := List (String × Item)

/-- Change the last of several tables. -/
def changeLast (change : Fields → Option Fields) (items : List Fields) : Option (List Fields) :=
  match items.getLast? with
  | some last => (change last).map fun fields => items.dropLast ++ [fields]
  | none => none

def addValue (value : Value) : List String → Fields → Option Fields
  | [], _ => none
  | [name], fields =>
      match field? name fields with
      | none => some (setField name (.value value) fields)
      | some _ => none
  | name :: rest, fields =>
      match field? name fields with
      | none => (addValue value rest []).map fun inner => setField name (.table .dotted inner) fields
      | some (.table .opened _) => none
      | some (.table origin inner) =>
          (addValue value rest inner).map fun inner => setField name (.table origin inner) fields
      | some _ => none

/-- Change the fields of the table that a header has opened. -/
def changeAt (change : Fields → Option Fields) : List String → Fields → Option Fields
  | [], fields => change fields
  | name :: rest, fields =>
      match field? name fields with
      | some (.table origin inner) =>
          (changeAt change rest inner).map fun inner => setField name (.table origin inner) fields
      | some (.tables items) =>
          (changeLast (changeAt change rest) items).map fun items =>
            setField name (.tables items) fields
      | _ => none

/-- Open a table by a header: `finish` deals with its last name. -/
def openWith (finish : String → Fields → Option Fields) : List String → Fields → Option Fields
  | [], _ => none
  | [name], fields => finish name fields
  | name :: rest, fields =>
      match field? name fields with
      | none =>
          (openWith finish rest []).map fun inner => setField name (.table .passed inner) fields
      | some (.table origin inner) =>
          (openWith finish rest inner).map fun inner => setField name (.table origin inner) fields
      | some (.tables items) =>
          (changeLast (openWith finish rest) items).map fun items =>
            setField name (.tables items) fields
      | some (.value _) => none

/-- The last name of a header for one table. -/
def openTable (name : String) (fields : Fields) : Option Fields :=
  match field? name fields with
  | none => some (setField name (.table .opened []) fields)
  | some (.table .passed inner) => some (setField name (.table .opened inner) fields)
  | some _ => none

/-- The last name of a header for one more table of a list. -/
def openEntry (name : String) (fields : Fields) : Option Fields :=
  match field? name fields with
  | none => some (setField name (.tables [[]]) fields)
  | some (.tables items) => some (setField name (.tables (items ++ [[]])) fields)
  | some _ => none

mutual

def Item.toValue : Item → Value
  | .value value => value
  | .table _ fields => .table (fieldValues fields)
  | .tables items => .list (entryValues items)

def fieldValues : List (String × Item) → List (String × Value)
  | [] => []
  | (name, item) :: rest => (name, item.toValue) :: fieldValues rest

def entryValues : List (List (String × Item)) → List Value
  | [] => []
  | fields :: rest => .table (fieldValues fields) :: entryValues rest

end

end EnvInventory.Toml
