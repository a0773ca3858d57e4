import EnvInventory.Number

/-!
# Values of settings

Settings come as nested tables of values, and are merged before anyone asks for their types.  A value
is then read as what is wanted: every scalar can be read as a text, numbers and some words as truth
values.
-/

namespace EnvInventory.Settings

/-- A number written with a fraction or an exponent, or one of the special values. -/
inductive Fractional where
  | finite (value : Binary64)
  | infinity (negative : Bool)
  | notANumber
deriving Repr, DecidableEq, Inhabited

def Fractional.text : Fractional → String
  | .finite value => value.plainText
  | .infinity negative => if negative then "-inf" else "inf"
  | .notANumber => "NaN"

def Fractional.isZero : Fractional → Bool
  | .finite value => value.mantissa == 0
  | _ => false

/-- A value of a setting.  Places that were skipped over are missing. -/
inductive Value where
  | missing
  | boolean (value : Bool)
  | integer (value : Int)
  | real (value : Fractional)
  | text (value : String)
  | list (items : List Value)
  | table (fields : List (String × Value))
deriving Repr, Inhabited

/-- The words for a truth value, in any case. -/
def truthOfWord? (word : String) : Option Bool :=
  let lower := String.ofList (word.toList.map Char.toLower)
  if lower = "1" ∨ lower = "true" ∨ lower = "on" ∨ lower = "yes" then some true
  else if lower = "0" ∨ lower = "false" ∨ lower = "off" ∨ lower = "no" then some false
  else none

namespace Value

def asText? : Value → Option String
  | .boolean value => some (if value then "true" else "false")
  | .integer value => some (toString value)
  | .real value => some value.text
  | .text value => some value
  | _ => none

/-- A scalar as truth value: numbers are true unless they are zero. -/
def asBoolean? : Value → Option Bool
  | .boolean value => some value
  | .integer value => some (value != 0)
  | .real value => some (!value.isZero)
  | .text value => truthOfWord? value
  | _ => none

/-- A list whose items are all scalars, as texts. -/
def asTexts? : Value → Option (List String)
  | .list items => items.mapM asText?
  | _ => none

end Value

/-! ### Tables -/

/-- What a table holds under a name. -/
def field? {α : Type} (name : String) (fields : List (String × α)) : Option α :=
  (fields.find? fun field => field.1 == name).map Prod.snd

/-- Set what a table holds under a name, at its old place if it has one. -/
def setField {α : Type} (name : String) (value : α) : List (String × α) → List (String × α)
  | [] => [(name, value)]
  | (other, old) :: rest =>
      if other = name then (name, value) :: rest else (other, old) :: setField name value rest

/-- The fields of a table; any other value counts as an empty table. -/
def Value.fields : Value → List (String × Value)
  | .table fields => fields
  | _ => []

/-- The items of a list; any other value counts as an empty list. -/
def Value.items : Value → List Value
  | .list items => items
  | _ => []

mutual

/-- Merge a value over another: tables are merged field by field, and anything else is replaced. -/
def Value.mergeOver : Value → Value → Value
  | .table fields, old => .table (mergeFields fields old.fields)
  | value, _ => value

def mergeFields : List (String × Value) → List (String × Value) → List (String × Value)
  | [], old => old
  | (name, value) :: rest, old =>
      mergeFields rest (setField name (value.mergeOver ((field? name old).getD .missing)) old)

end

end EnvInventory.Settings
