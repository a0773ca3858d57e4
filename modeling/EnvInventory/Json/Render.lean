import EnvInventory.Encoding.Utf16
import EnvInventory.Json.Value

/-!
# Writing JSON

The file form puts each item and field on a line of its own, two blanks deeper than its container,
writes empty containers on one line and ends with a line feed.  It is pure ASCII: every other
character is written as the escapes of its UTF-16 units.  The line form has neither blanks nor line
ends and leaves characters above ASCII as they are.
-/

namespace EnvInventory.Json

open Encoding (charUnits16)

/-- Digit of a number below sixteen, in lower case. -/
def hexDigit (n : Nat) : Char :=
  if n < 10 then Char.ofNat (48 + n) else Char.ofNat (87 + n)

def unitEscape (unit : Nat) : List Char :=
  ['\\', 'u', hexDigit (unit / 4096 % 16), hexDigit (unit / 256 % 16), hexDigit (unit / 16 % 16),
    hexDigit (unit % 16)]

/-- A character inside a string.  With `ascii`, characters above ASCII are escaped too. -/
def escapeChar (ascii : Bool) (c : Char) : List Char :=
  if c = '"' then ['\\', '"']
  else if c = '\\' then ['\\', '\\']
  else if c = '\x08' then ['\\', 'b']
  else if c = '\x0c' then ['\\', 'f']
  else if c = '\n' then ['\\', 'n']
  else if c = '\r' then ['\\', 'r']
  else if c = '\t' then ['\\', 't']
  else if c.toNat < 0x20 then unitEscape c.toNat
  else if ascii && 0x80 ≤ c.toNat then (charUnits16 c).flatMap unitEscape
  else [c]

def quote (ascii : Bool) (text : String) : List Char :=
  '"' :: text.toList.flatMap (escapeChar ascii) ++ ['"']

def Number.text : Number → List Char
  | .integer value => (toString value).toList
  | .float value => value.decimalText.toList

/-- A new line with the indentation of a depth. -/
def newLine (depth : Nat) : List Char :=
  '\n' :: List.replicate (2 * depth) ' '

mutual

/-- A value at a depth, without a line end behind it. -/
def renderValue (depth : Nat) : Value → List Char
  | .null => "null".toList
  | .bool true => "true".toList
  | .bool false => "false".toList
  | .number n => n.text
  | .string s => quote true s
  | .array [] => ['[', ']']
  | .array (item :: rest) =>
      '[' :: newLine (depth + 1) ++ renderValue (depth + 1) item ++ renderItems (depth + 1) rest
        ++ newLine depth ++ [']']
  | .object [] => ['{', '}']
  | .object ((key, value) :: rest) =>
      '{' :: newLine (depth + 1) ++ quote true key ++ ':' :: ' ' :: renderValue (depth + 1) value
        ++ renderFields (depth + 1) rest ++ newLine depth ++ ['}']

def renderItems (depth : Nat) : List Value → List Char
  | [] => []
  | item :: rest =>
      ',' :: newLine depth ++ renderValue depth item ++ renderItems depth rest

def renderFields (depth : Nat) : List (String × Value) → List Char
  | [] => []
  | (key, value) :: rest =>
      ',' :: newLine depth ++ quote true key ++ ':' :: ' ' :: renderValue depth value
        ++ renderFields depth rest

end

def render (value : Value) : String :=
  String.ofList (renderValue 0 value ++ ['\n'])

mutual

def compactValue : Value → List Char
  | .null => "null".toList
  | .bool true => "true".toList
  | .bool false => "false".toList
  | .number n => n.text
  | .string s => quote false s
  | .array [] => ['[', ']']
  | .array (item :: rest) => '[' :: compactValue item ++ compactItems rest ++ [']']
  | .object [] => ['{', '}']
  | .object ((key, value) :: rest) =>
      '{' :: quote false key ++ ':' :: compactValue value ++ compactFields rest ++ ['}']

def compactItems : List Value → List Char
  | [] => []
  | item :: rest => ',' :: compactValue item ++ compactItems rest

def compactFields : List (String × Value) → List Char
  | [] => []
  | (key, value) :: rest =>
      ',' :: quote false key ++ ':' :: compactValue value ++ compactFields rest

end

def compact (value : Value) : String :=
  String.ofList (compactValue value)

end EnvInventory.Json
