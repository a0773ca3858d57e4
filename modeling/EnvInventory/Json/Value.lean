import EnvInventory.Number

/-!
# JSON values

Objects keep their fields in the order in which they are written.  Two documents that differ only in
the order of fields hold the same value: `normalize` sorts the fields of every object by their keys,
and keeps the last field of those that share a key.
-/

namespace EnvInventory.Json

/-- A number: an integer, or a number written with a fraction or an exponent. -/
inductive Number where
  | integer (value : Int)
  | float (value : Binary64)
deriving Repr, DecidableEq, Inhabited

/-- A JSON value. -/
inductive Value where
  | null
  | bool (value : Bool)
  | number (value : Number)
  | string (value : String)
  | array (items : List Value)
  | object (fields : List (String × Value))
deriving Repr, Inhabited

/-! ### Comparing values -/

mutual

/-- Equality of values, with fields in order. -/
def Value.same : Value → Value → Bool
  | .null, .null => true
  | .bool a, .bool b => a == b
  | .number a, .number b => decide (a = b)
  | .string a, .string b => a == b
  | .array as, .array bs => sameItems as bs
  | .object as, .object bs => sameFields as bs
  | _, _ => false

def sameItems : List Value → List Value → Bool
  | [], [] => true
  | a :: as, b :: bs => a.same b && sameItems as bs
  | _, _ => false

def sameFields : List (String × Value) → List (String × Value) → Bool
  | [], [] => true
  | (k, a) :: as, (l, b) :: bs => k == l && a.same b && sameFields as bs
  | _, _ => false

end

/-- Put a field at its place in ascending order, instead of an earlier one with its key. -/
def putField (key : String) (value : Value) : List (String × Value) → List (String × Value)
  | [] => [(key, value)]
  | (other, old) :: rest =>
      if key = other then (key, value) :: rest
      else if key < other then (key, value) :: (other, old) :: rest
      else (other, old) :: putField key value rest

/-- Fields in ascending order of their keys; of several with one key the last counts. -/
def sortFields (fields : List (String × Value)) : List (String × Value) :=
  fields.foldl (fun sorted (key, value) => putField key value sorted) []

mutual

/-- The value with the fields of every object in order. -/
def Value.normalize : Value → Value
  | .array items => .array (normalizeItems items)
  | .object fields => .object (sortFields (normalizeFields fields))
  | value => value

def normalizeItems : List Value → List Value
  | [] => []
  | item :: rest => item.normalize :: normalizeItems rest

def normalizeFields : List (String × Value) → List (String × Value)
  | [] => []
  | (key, value) :: rest => (key, value.normalize) :: normalizeFields rest

end

/-- Drop the fields of an object that have the given key. -/
def Value.without (key : String) : Value → Value
  | .object fields => .object (fields.filter fun field => field.1 ≠ key)
  | value => value

end EnvInventory.Json
