import EnvInventory.Encoding.Utf16
import EnvInventory.Json.Value
import EnvInventory.Number

/-!
# Reading JSON

A document is one value with blanks around it.  Containers may be nested 127 deep.  Strings hold no
raw control characters and no escape of a surrogate without its partner; integers that do not fit
into 64 bits are read as numbers of double precision, and a number beyond their range is refused.

The reader works on the characters of the document and gives back what it did not consume.  The
amount of fuel it starts with is twice the length of the document, more than it can use.
-/

namespace EnvInventory.Json

open Encoding (isHighSurrogate isLowSurrogate pairChar)

def isSpace (c : Char) : Bool :=
  c == ' ' || c == '\n' || c == '\t' || c == '\r'

def skipSpace (text : List Char) : List Char :=
  text.dropWhile isSpace

/-! ### Strings -/

def unitOf? (a b c d : Char) : Option Nat :=
  Digits.number? 16 [a, b, c, d]

def shortEscape? : Char → Option Char
  | '"' => some '"'
  | '\\' => some '\\'
  | '/' => some '/'
  | 'b' => some '\x08'
  | 'f' => some '\x0c'
  | 'n' => some '\n'
  | 'r' => some '\r'
  | 't' => some '\t'
  | _ => none

/-- The characters of a string behind its opening quote, and what follows its closing quote. -/
def readString : List Char → Option (List Char × List Char)
  | [] => none
  | '"' :: rest => some ([], rest)
  | '\\' :: 'u' :: a :: b :: c :: d :: rest =>
      match unitOf? a b c d with
      | none => none
      | some unit =>
          if isHighSurrogate unit then
            match rest with
            | '\\' :: 'u' :: e :: f :: g :: h :: rest =>
                match unitOf? e f g h with
                | some low =>
                    if isLowSurrogate low then
                      (readString rest).map fun (text, rest) => (pairChar unit low :: text, rest)
                    else none
                | none => none
            | _ => none
          else if isLowSurrogate unit then none
          else (readString rest).map fun (text, rest) => (Char.ofNat unit :: text, rest)
  | '\\' :: c :: rest =>
      match shortEscape? c with
      | some c => (readString rest).map fun (text, rest) => (c :: text, rest)
      | none => none
  | c :: rest =>
      if c = '\\' ∨ c.toNat < 0x20 then none
      else (readString rest).map fun (text, rest) => (c :: text, rest)

/-! ### Numbers -/

/-- Integer part: a zero alone, or digits that do not start with one. -/
def readIntegerPart : List Char → Option (List Char × List Char)
  | '0' :: rest => if (rest.head?.map Char.isDigit).getD false then none else some (['0'], rest)
  | text =>
      let digits := text.takeWhile Char.isDigit
      if digits = [] then none else some (digits, text.dropWhile Char.isDigit)

/-- Fraction behind a point; absent without one, refused without digits. -/
def readFraction : List Char → Option (Option (List Char) × List Char)
  | '.' :: rest =>
      let digits := rest.takeWhile Char.isDigit
      if digits = [] then none else some (some digits, rest.dropWhile Char.isDigit)
  | text => some (none, text)

/-- Exponent; absent without its letter, refused without digits. -/
def readExponent : List Char → Option (Option Int × List Char)
  | c :: rest =>
      if c = 'e' ∨ c = 'E' then
        let (negative, rest) :=
          match rest with
          | '-' :: rest => (true, rest)
          | '+' :: rest => (false, rest)
          | rest => (false, rest)
        let digits := rest.takeWhile Char.isDigit
        if digits = [] then none
        else
          let value : Int := Digits.number 10 digits
          some (some (if negative then -value else value), rest.dropWhile Char.isDigit)
      else some (none, c :: rest)
  | [] => some (none, [])

/-- The number of an integer literal: exact within 64 bits, otherwise of double precision.  Negative
zero is of double precision too. -/
def integerNumber? (negative : Bool) (magnitude : Nat) : Option Number :=
  if negative then
    if 0 < magnitude ∧ magnitude ≤ 0x8000000000000000 then some (.integer (-(magnitude : Int)))
    else (Binary64.ofDecimal? true magnitude 0).map .float
  else if magnitude < 0x10000000000000000 then some (.integer magnitude)
  else (Binary64.ofDecimal? false magnitude 0).map .float

def readNumber (negative : Bool) (text : List Char) : Option (Number × List Char) := do
  let (whole, text) ← readIntegerPart text
  let (fraction, text) ← readFraction text
  let (exponent, text) ← readExponent text
  match fraction, exponent with
  | none, none =>
      let number ← integerNumber? negative (Digits.number 10 whole)
      pure (number, text)
  | _, _ =>
      let digits := fraction.getD []
      let scale : Int := exponent.getD 0 - digits.length
      let number ← Binary64.ofDecimal? negative (Digits.number 10 (whole ++ digits)) scale
      pure (.float number, text)

/-! ### Values -/

mutual

/-- A value and what follows it; `depth` is how deep containers may still be nested. -/
def readValue : Nat → Nat → List Char → Option (Value × List Char)
  | 0, _, _ => none
  | fuel + 1, depth, text =>
      match skipSpace text with
      | 'n' :: 'u' :: 'l' :: 'l' :: rest => some (.null, rest)
      | 't' :: 'r' :: 'u' :: 'e' :: rest => some (.bool true, rest)
      | 'f' :: 'a' :: 'l' :: 's' :: 'e' :: rest => some (.bool false, rest)
      | '"' :: rest => (readString rest).map fun (s, rest) => (.string (String.ofList s), rest)
      | '[' :: rest =>
          match depth with
          | 0 => none
          | depth + 1 =>
              match skipSpace rest with
              | ']' :: rest => some (.array [], rest)
              | _ => (readItems fuel depth rest).map fun (items, rest) => (.array items, rest)
      | '{' :: rest =>
          match depth with
          | 0 => none
          | depth + 1 =>
              match skipSpace rest with
              | '}' :: rest => some (.object [], rest)
              | _ => (readFields fuel depth rest).map fun (fields, rest) => (.object fields, rest)
      | '-' :: rest => (readNumber true rest).map fun (n, rest) => (.number n, rest)
      | text => (readNumber false text).map fun (n, rest) => (.number n, rest)

/-- Items up to and with the closing bracket; there is at least one. -/
def readItems : Nat → Nat → List Char → Option (List Value × List Char)
  | 0, _, _ => none
  | fuel + 1, depth, text =>
      match readValue fuel depth text with
      | none => none
      | some (item, rest) =>
          match skipSpace rest with
          | ',' :: rest => (readItems fuel depth rest).map fun (items, rest) => (item :: items, rest)
          | ']' :: rest => some ([item], rest)
          | _ => none

/-- Fields up to and with the closing brace; there is at least one. -/
def readFields : Nat → Nat → List Char → Option (List (String × Value) × List Char)
  | 0, _, _ => none
  | fuel + 1, depth, text =>
      match skipSpace text with
      | '"' :: rest =>
          match readString rest with
          | none => none
          | some (key, rest) =>
              match skipSpace rest with
              | ':' :: rest =>
                  match readValue fuel depth rest with
                  | none => none
                  | some (value, rest) =>
                      let field := (String.ofList key, value)
                      match skipSpace rest with
                      | ',' :: rest =>
                          (readFields fuel depth rest).map fun (fields, rest) =>
                            (field :: fields, rest)
                      | '}' :: rest => some ([field], rest)
                      | _ => none
              | _ => none
      | _ => none

end

def maxDepth : Nat := 127

def read? (document : String) : Option Value :=
  let text := document.toList
  match readValue (2 * text.length + 2) maxDepth text with
  | some (value, rest) => if skipSpace rest = [] then some value else none
  | none => none

end EnvInventory.Json
