import EnvInventory.Toml.Scalar
import EnvInventory.Toml.Table

/-!
# TOML documents

A document is a sequence of lines: headers, assignments of values to keys, comments and blank lines.
Lists and tables between braces may run over several lines, hold comments and end with a comma.  A
byte order mark at the start is dropped.

All readers give back what they did not consume, and refuse what is no TOML.  They run on fuel that
the length of the document provides, more than they can use.
-/

namespace EnvInventory.Toml

open Settings (Value)

/-! ### Between tokens -/

/-- What follows a comment: the end of its line, or nothing. -/
def skipComment : List Char → Option (List Char)
  | [] => some []
  | '\n' :: rest => some ('\n' :: rest)
  | '\r' :: '\n' :: rest => some ('\r' :: '\n' :: rest)
  | c :: rest => if isControl c then none else skipComment rest

/-- Drop blanks, line ends and comments.  The flag says whether a comment is being read. -/
def skipFiller : Bool → List Char → Option (List Char)
  | _, [] => some []
  | _, '\n' :: rest => skipFiller false rest
  | _, '\r' :: '\n' :: rest => skipFiller false rest
  | true, c :: rest => if isControl c then none else skipFiller true rest
  | false, c :: rest =>
      if c = '#' then skipFiller true rest
      else if isSpace c then skipFiller false rest
      else some (c :: rest)

/-- Drop what may stand behind an expression: blanks, a comment and the end of the line. -/
def endLine (text : List Char) : Option (List Char) := do
  let rest ←
    match skipSpace text with
    | '#' :: rest => skipComment rest
    | rest => some rest
  match rest with
  | [] => some []
  | rest => lineEnd? rest

/-! ### Values -/

mutual

def readValue : Nat → List Char → Option (Value × List Char)
  | 0, _ => none
  | fuel + 1, text =>
      match text with
      | '[' :: rest => (readItems fuel rest).map fun (items, rest) => (.list items, rest)
      | '{' :: rest =>
          (readFields fuel [] rest).map fun (fields, rest) => (.table (fieldValues fields), rest)
      | '"' :: _ => (readString text).map fun (s, rest) => (.text (String.ofList s), rest)
      | '\'' :: _ => (readString text).map fun (s, rest) => (.text (String.ofList s), rest)
      | _ =>
          let (word, rest) := takeWord text
          (word? word).map fun value => (value, rest)

/-- Items of a list, up to and with its closing bracket. -/
def readItems : Nat → List Char → Option (List Value × List Char)
  | 0, _ => none
  | fuel + 1, text =>
      match skipFiller false text with
      | none => none
      | some (']' :: rest) => some ([], rest)
      | some text =>
          match readValue fuel text with
          | none => none
          | some (value, rest) =>
              match skipFiller false rest with
              | some (',' :: rest) =>
                  (readItems fuel rest).map fun (items, rest) => (value :: items, rest)
              | some (']' :: rest) => some ([value], rest)
              | _ => none

/-- Fields of a table between braces, added to those before them, up to and with its closing
brace. -/
def readFields : Nat → Fields → List Char → Option (Fields × List Char)
  | 0, _, _ => none
  | fuel + 1, fields, text =>
      match skipFiller false text with
      | none => none
      | some ('}' :: rest) => some (fields, rest)
      | some text =>
          match readKey (text.length + 1) text with
          | some (names, '=' :: rest) =>
              match readValue fuel (skipSpace rest) with
              | none => none
              | some (value, rest) =>
                  match addValue value names fields, skipFiller false rest with
                  | some fields, some (',' :: rest) => readFields fuel fields rest
                  | some fields, some ('}' :: rest) => some (fields, rest)
                  | _, _ => none
          | _ => none

end

/-! ### Lines -/

/-- The fields read so far, and the header they are added under. -/
structure Progress where
  fields : Fields
  header : List String

def readHeader (fuel : Nat) (progress : Progress) (text : List Char) :
    Option (Progress × List Char) :=
  match readKey fuel text with
  | some (names, ']' :: rest) => do
      let fields ← openWith openTable names progress.fields
      let rest ← endLine rest
      pure (⟨fields, names⟩, rest)
  | _ => none

def readEntryHeader (fuel : Nat) (progress : Progress) (text : List Char) :
    Option (Progress × List Char) :=
  match readKey fuel text with
  | some (names, ']' :: ']' :: rest) => do
      let fields ← openWith openEntry names progress.fields
      let rest ← endLine rest
      pure (⟨fields, names⟩, rest)
  | _ => none

def readAssignment (fuel : Nat) (progress : Progress) (text : List Char) :
    Option (Progress × List Char) :=
  match readKey fuel text with
  | some (names, '=' :: rest) => do
      let (value, rest) ← readValue fuel (skipSpace rest)
      let fields ← changeAt (addValue value names) progress.header progress.fields
      let rest ← endLine rest
      pure (⟨fields, progress.header⟩, rest)
  | _ => none

/-- One expression that is neither blank nor a comment. -/
def readExpression (fuel : Nat) (progress : Progress) (text : List Char) :
    Option (Progress × List Char) :=
  match text with
  | '[' :: '[' :: rest => readEntryHeader fuel progress rest
  | '[' :: rest => readHeader fuel progress rest
  | _ => readAssignment fuel progress text

/-- The expressions of a document; the first fuel bounds their number. -/
def readExpressions (fuel : Nat) : Nat → Progress → List Char → Option Fields
  | 0, _, _ => none
  | count + 1, progress, text =>
      match skipFiller false text with
      | none => none
      | some [] => some progress.fields
      | some text =>
          match readExpression fuel progress text with
          | some (progress, rest) => readExpressions fuel count progress rest
          | none => none

def dropMark : List Char → List Char
  | c :: rest => if c.toNat = 0xFEFF then rest else c :: rest
  | [] => []

def read? (document : String) : Option (List (String × Value)) :=
  let text := dropMark document.toList
  let fuel := 2 * text.length + 2
  (readExpressions fuel fuel ⟨[], []⟩ text).map fieldValues

end EnvInventory.Toml
