import EnvInventory.Number

/-!
# Strings and keys of TOML

Four forms of strings: basic strings with escapes and literal strings without, each on one line or
on several.  Control characters other than the tab are refused everywhere, a line end inside a
string is a line feed, and the first line end of a string on several lines is dropped.

A key is one or more names with dots between them; a name is bare or a string on one line.
-/

namespace EnvInventory.Toml

def isSpace (c : Char) : Bool :=
  c == ' ' || c == '\t'

/-- Control characters that may not stand in a document. -/
def isControl (c : Char) : Bool :=
  (c.toNat < 0x20 && c != '\t') || c.toNat == 0x7F

def skipSpace (text : List Char) : List Char :=
  text.dropWhile isSpace

def lineEnd? : List Char → Option (List Char)
  | '\n' :: rest => some rest
  | '\r' :: '\n' :: rest => some rest
  | _ => none

/-! ### Escapes -/

/-- Character of a list of hexadecimal digits; surrogates are none. -/
def hexChar? (digits : List Char) : Option Char :=
  match Digits.number? 16 digits with
  | some number => if number.isValidChar then some (Char.ofNat number) else none
  | none => none

def shortEscape? : Char → Option Char
  | 'b' => some '\x08'
  | 't' => some '\t'
  | 'n' => some '\n'
  | 'f' => some '\x0c'
  | 'r' => some '\r'
  | 'e' => some '\x1b'
  | '"' => some '"'
  | '\\' => some '\\'
  | _ => none

/-- Number of hexadecimal digits behind an escape. -/
def escapeWidth : Char → Nat
  | 'x' => 2
  | 'u' => 4
  | 'U' => 8
  | _ => 0

/-- The character of an escape behind its backslash, and the number of characters it takes. -/
def escapeAt? : List Char → Option (Char × Nat)
  | [] => none
  | c :: rest =>
      let width := escapeWidth c
      if width = 0 then (shortEscape? c).map fun c => (c, 1)
      else if rest.length < width then none
      else (hexChar? (rest.take width)).map fun c => (c, width + 1)

/-! ### Strings on one line -/

/-- The rest of a basic string and what follows it.  The first argument is the number of characters
that belong to an escape already read. -/
def readBasic : Nat → List Char → Option (List Char × List Char)
  | _, [] => none
  | skipped + 1, _ :: rest => readBasic skipped rest
  | 0, c :: rest =>
      if c = '"' then some ([], rest)
      else if c = '\\' then
        match escapeAt? rest with
        | some (c, width) => (readBasic width rest).map fun (text, rest) => (c :: text, rest)
        | none => none
      else if isControl c then none
      else (readBasic 0 rest).map fun (text, rest) => (c :: text, rest)

/-- The rest of a literal string and what follows it. -/
def readLiteral : List Char → Option (List Char × List Char)
  | [] => none
  | c :: rest =>
      if c = '\'' then some ([], rest)
      else if isControl c then none
      else (readLiteral rest).map fun (text, rest) => (c :: text, rest)

/-! ### Strings on several lines -/

/-- The end of a string on several lines: up to two quotes that belong to the string may stand
directly before the three that close it. -/
def closing? (quote : Char) (text : List Char) : Option (List Char × List Char) :=
  let count := min (text.takeWhile (· == quote)).length 5
  if count < 3 then none else some (List.replicate (count - 3) quote, text.drop count)

/-- Whether a backslash with this text behind it ends its line. -/
def endsLine (text : List Char) : Bool :=
  (lineEnd? (skipSpace text)).isSome

/-- The rest of a basic string on several lines and what follows it.  While `trimming`, blanks and
line ends are dropped. -/
def readLongBasic : Bool → Nat → List Char → Option (List Char × List Char)
  | _, _, [] => none
  | trimming, skipped + 1, _ :: rest => readLongBasic trimming skipped rest
  | trimming, 0, c :: rest =>
      match closing? '"' (c :: rest) with
      | some found => some found
      | none =>
          if trimming && (isSpace c || c == '\n') then readLongBasic true 0 rest
          else if c = '\r' then
            match rest with
            | '\n' :: rest =>
                if trimming then readLongBasic true 0 rest
                else (readLongBasic false 0 rest).map fun (text, rest) => ('\n' :: text, rest)
            | _ => none
          else if c = '\\' then
            if endsLine rest then readLongBasic true 0 rest
            else
              match escapeAt? rest with
              | some (c, width) =>
                  (readLongBasic false width rest).map fun (text, rest) => (c :: text, rest)
              | none => none
          else if isControl c && c != '\n' then none
          else (readLongBasic false 0 rest).map fun (text, rest) => (c :: text, rest)

/-- The rest of a literal string on several lines and what follows it. -/
def readLongLiteral : List Char → Option (List Char × List Char)
  | [] => none
  | c :: rest =>
      match closing? '\'' (c :: rest) with
      | some found => some found
      | none =>
          if c = '\r' then
            match rest with
            | '\n' :: rest => (readLongLiteral rest).map fun (text, rest) => ('\n' :: text, rest)
            | _ => none
          else if isControl c && c != '\n' then none
          else (readLongLiteral rest).map fun (text, rest) => (c :: text, rest)

def dropLineEnd (text : List Char) : List Char :=
  (lineEnd? text).getD text

/-- A string of any form, or nothing if the text starts with no quote. -/
def readString : List Char → Option (List Char × List Char)
  | '"' :: '"' :: '"' :: rest => readLongBasic false 0 (dropLineEnd rest)
  | '\'' :: '\'' :: '\'' :: rest => readLongLiteral (dropLineEnd rest)
  | '"' :: rest => readBasic 0 rest
  | '\'' :: rest => readLiteral rest
  | _ => none

/-! ### Keys -/

def isBare (c : Char) : Bool :=
  c.isAlphanum || c == '_' || c == '-'

def readName : List Char → Option (String × List Char)
  | '"' :: rest => (readBasic 0 rest).map fun (text, rest) => (String.ofList text, rest)
  | '\'' :: rest => (readLiteral rest).map fun (text, rest) => (String.ofList text, rest)
  | text =>
      let name := text.takeWhile isBare
      if name = [] then none else some (String.ofList name, text.dropWhile isBare)

/-- The names of a key; the fuel bounds their number.  Blanks around names and dots are dropped. -/
def readKey : Nat → List Char → Option (List String × List Char)
  | 0, _ => none
  | fuel + 1, text =>
      match readName (skipSpace text) with
      | none => none
      | some (name, rest) =>
          match skipSpace rest with
          | '.' :: rest => (readKey fuel rest).map fun (names, rest) => (name :: names, rest)
          | rest => some ([name], rest)

end EnvInventory.Toml
