import EnvInventory.Settings.Value
import EnvInventory.Text.Parts

/-!
# Key expressions

A setting is addressed by names with dots between them; a name may be followed by positions in
brackets, which count from the end when they are negative.  Assigning to a key makes the tables and
lists on the way, in place of values of other kinds, and fills positions that are skipped over with
missing values.
-/

namespace EnvInventory.Settings

open Text

/-- A step behind the first name of a key. -/
inductive Step where
  | field (name : String)
  | position (index : Int)
deriving Repr, DecidableEq, Inhabited

/-- A key expression. -/
structure Key where
  root : String
  steps : List Step
deriving Repr, DecidableEq, Inhabited

def isKeyChar (c : Char) : Bool :=
  c.isAlphanum || c == '_' || c == '-'

/-- A name at the start of a text, and what follows it. -/
def readName (text : List Char) : Option (String × List Char) :=
  let name := text.takeWhile isKeyChar
  if name = [] then none else some (String.ofList name, text.dropWhile isKeyChar)

/-- Blanks inside brackets. -/
def isPadding (c : Char) : Bool :=
  c == ' ' || c == '\t'

/-- A position behind its opening bracket, up to and with the closing one. -/
def readPosition (text : List Char) : Option (Int × List Char) :=
  let text := text.dropWhile isPadding
  let (negative, text) :=
    match text with
    | '-' :: rest => (true, rest)
    | text => (false, text)
  let digits := text.takeWhile Char.isDigit
  let magnitude : Nat := digits.foldl (fun n c => n * 10 + (c.toNat - 48)) 0
  let limit := 0x8000000000000000
  if digits = [] ∨ limit < magnitude ∨ (magnitude = limit ∧ negative = false) then none
  else
    match (text.dropWhile Char.isDigit).dropWhile isPadding with
    | ']' :: rest => some (if negative then -(magnitude : Int) else magnitude, rest)
    | _ => none

/-- The steps of a whole text; the fuel bounds their number. -/
def readSteps : Nat → List Char → Option (List Step)
  | _, [] => some []
  | 0, _ => none
  | fuel + 1, '.' :: text =>
      match readName text with
      | some (name, rest) => (readSteps fuel rest).map (.field name :: ·)
      | none => none
  | fuel + 1, '[' :: text =>
      match readPosition text with
      | some (index, rest) => (readSteps fuel rest).map (.position index :: ·)
      | none => none
  | _ + 1, _ => none

def Key.read? (text : String) : Option Key :=
  match readName text.toList with
  | some (root, rest) => (readSteps rest.length rest).map fun steps => ⟨root, steps⟩
  | none => none

/-- The key of a single name, whatever its characters. -/
def Key.ofName (name : String) : Key :=
  ⟨name, []⟩

/-- The key a text stands for when it names a setting of a layer: its key expression, or else the
text itself as a single name. -/
def Key.ofText (text : String) : Key :=
  (Key.read? text).getD (Key.ofName text)

/-! ### Assigning -/

/-- Change the item at a position, counted from the end when negative.  A position behind the end is
reached by adding missing items, and so is one before the start. -/
def modifyItem (index : Int) (change : Value → Value) (items : List Value) : List Value :=
  if 0 ≤ index then
    let place := index.toNat
    let items := items ++ List.replicate (place + 1 - items.length) Value.missing
    items.modify place change
  else
    let distance := (-index).toNat
    if distance ≤ items.length then items.modify (items.length - distance) change
    else (List.replicate (distance - items.length) Value.missing ++ items).modify 0 change

def modifyAt (change : Value → Value) : List Step → Value → Value
  | [], value => change value
  | .field name :: rest, value =>
      let fields := value.fields
      .table (setField name (modifyAt change rest ((field? name fields).getD .missing)) fields)
  | .position index :: rest, value =>
      .list (modifyItem index (modifyAt change rest) value.items)

/-- Merge a value over what a key addresses in a table. -/
def assign (key : Key) (value : Value) (fields : List (String × Value)) :
    List (String × Value) :=
  let old := (field? key.root fields).getD .missing
  setField key.root (modifyAt value.mergeOver key.steps old) fields

/-- Merge a layer: a list of settings, each under the text of its key. -/
def mergeLayer (layer fields : List (String × Value)) : List (String × Value) :=
  layer.foldl (fun fields (text, value) => assign (Key.ofText text) value fields) fields

end EnvInventory.Settings
