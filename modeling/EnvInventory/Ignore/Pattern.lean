import EnvInventory.Encoding.Utf8
import EnvInventory.Text.Parts

/-!
# Patterns of ignore files

A pattern of an ignore file selects paths below the directory that holds the file.  Patterns and
paths are compared byte by byte.  Two asterisks stand for any number of directories when there are
slashes or ends around them, and are two wildcards for a name otherwise; braces hold alternatives, and
an opening bracket that is never closed stands for itself.
-/

namespace EnvInventory.Ignore

open Encoding (Bytes)
open Text

/-- A part of a pattern. -/
inductive Part where
  | literal (c : Char)
  /-- One byte of a name. -/
  | one
  /-- Any run of bytes of a name. -/
  | run
  /-- Directories at the start. -/
  | leading
  /-- Everything below a directory. -/
  | trailing
  /-- Directories between two names, or none. -/
  | inner
  | oneOf (negated : Bool) (ranges : List (Char × Char))
  | alternatives (branches : List (List Part))
deriving Repr, Inhabited

/-! ### Reading -/

/-- Where the reader of a class is: before its first character, behind a character, or behind a
hyphen that opens a range. -/
inductive ClassState where
  | start
  | item
  | range
deriving Repr, DecidableEq, Inhabited

/-- How the reading of a class ends: with its ranges, with a range that runs backwards, or without
a closing bracket. -/
inductive ClassResult where
  | done (ranges : List (Char × Char)) (rest : List Char)
  | backward
  | unclosed

def closeRange (c : Char) : List (Char × Char) → Option (List (Char × Char))
  | (first, _) :: rest => if c < first then none else some ((first, c) :: rest)
  | [] => none

/-- Read a class behind its opening bracket and its mark for negation.  `ranges` holds what has been
read, the last range first. -/
def readClass : ClassState → List (Char × Char) → List Char → ClassResult
  | _, _, [] => .unclosed
  | .start, ranges, c :: rest => readClass .item ((c, c) :: ranges) rest
  | .item, ranges, c :: rest =>
      if c = ']' then .done ranges.reverse rest
      else if c = '-' then readClass .range ranges rest
      else readClass .item ((c, c) :: ranges) rest
  | .range, ranges, c :: rest =>
      if c = ']' then .done (('-', '-') :: ranges).reverse rest
      else
        match closeRange c ranges with
        | some ranges => readClass .item ranges rest
        | none => .backward

/-- What the reader knows about the text before it: its last character, and whether an opening
bracket was found that is never closed. -/
structure Before where
  last : Option Char
  bracketsOpen : Bool
deriving Repr, DecidableEq, Inhabited

/-- The parts that two asterisks stand for, in reverse order, behind parts in reverse order.
`nested` says that the reader is inside braces, and `rest` is what follows the asterisks.  Answers
what follows, with the slash that belongs to the wildcard taken away. -/
def readStars (nested : Bool) (before : Option Char) (parts : List Part) (rest : List Char) :
    List Part × Option Char × List Char :=
  let plain := (.run :: .run :: parts, some '*', rest)
  match parts with
  | [] =>
      match rest with
      | [] => ([.leading], some '*', [])
      | '/' :: rest => ([.leading], some '/', rest)
      | _ => plain
  | last :: others =>
      if before ≠ some '/' then plain
      else
        let put := fun part =>
          match last with
          | .leading => .leading :: others
          | .trailing => .trailing :: others
          | _ => part :: others
        match rest with
        | [] => (put .trailing, some '*', [])
        | '/' :: rest => (put .inner, some '/', rest)
        | c :: more =>
            if nested ∧ (c = ',' ∨ c = '}') then (put .trailing, some '*', c :: more) else plain

mutual

/-- Read parts up to the end or, inside braces, up to a comma or the closing brace, which are left.
`parts` holds what has been read, the last part first. -/
def readParts (nested : Bool) : Nat → Before → List Part → List Char →
    Option (List Part × Before × List Char)
  | 0, _, _, _ => none
  | _ + 1, before, parts, [] => if nested then none else some (parts.reverse, before, [])
  | fuel + 1, before, parts, c :: rest =>
      let next := fun part => readParts nested fuel { before with last := some c } (part :: parts)
      match c with
      | '?' => next .one rest
      | '*' =>
          match rest with
          | '*' :: rest =>
              let (parts, last, rest) := readStars nested before.last parts rest
              readParts nested fuel { before with last := last } parts rest
          | rest => next .run rest
      | '[' =>
          if before.bracketsOpen then next (.literal '[') rest
          else
            let (negated, body) :=
              match rest with
              | '!' :: rest => (true, rest)
              | '^' :: rest => (true, rest)
              | rest => (false, rest)
            match readClass .start [] body with
            | .done ranges rest =>
                readParts nested fuel { before with last := some ']' }
                  (.oneOf negated ranges :: parts) rest
            | .backward => none
            | .unclosed =>
                readParts nested fuel ⟨some '[', true⟩ (.literal '[' :: parts) rest
      | '\\' =>
          match rest with
          | c :: rest =>
              readParts nested fuel { before with last := some c } (.literal c :: parts) rest
          | [] => none
      | '{' =>
          match readBranches fuel { before with last := some '{' } rest with
          | some (branches, before, rest) =>
              readParts nested fuel before (.alternatives branches :: parts) rest
          | none => none
      | '}' => if nested then some (parts.reverse, before, '}' :: rest) else none
      | ',' =>
          if nested then some (parts.reverse, before, ',' :: rest) else next (.literal ',') rest
      | c => next (.literal c) rest

/-- Read alternatives up to and with the closing brace. -/
def readBranches : Nat → Before → List Char →
    Option (List (List Part) × Before × List Char)
  | 0, _, _ => none
  | fuel + 1, before, text =>
      match readParts true fuel before [] text with
      | some (parts, before, ',' :: rest) =>
          (readBranches fuel { before with last := some ',' } rest).map
            fun (branches, before, rest) => (parts :: branches, before, rest)
      | some (parts, before, '}' :: rest) =>
          some ([parts], { before with last := some '}' }, rest)
      | _ => none

end

/-- Read a pattern; none if it is malformed. -/
def readPattern (text : List Char) : Option (List Part) :=
  (readParts false (2 * text.length + 2) ⟨none, false⟩ [] text).map fun (parts, _, _) => parts

/-! ### Matching -/

def isSlash (b : UInt8) : Bool :=
  b == 0x2F

def charBytes (c : Char) : Bytes :=
  Encoding.encodeUtf8 c.toString

/-- The ranges of bytes that a range of characters stands for.  Only the last byte of the first
character and the first byte of the last one span a range; all others stand for themselves. -/
def byteRanges (range : Char × Char) : List (UInt8 × UInt8) :=
  let single := fun (bytes : Bytes) => bytes.map fun b => (b, b)
  if range.1 = range.2 then single (charBytes range.1)
  else
    let first := charBytes range.1
    let last := charBytes range.2
    single first.dropLast ++ [(first.getLastD 0, last.headD 0)] ++ single last.tail

def classHolds (negated : Bool) (ranges : List (Char × Char)) (b : UInt8) : Bool :=
  ((ranges.flatMap byteRanges).any fun range => range.1 ≤ b && b ≤ range.2) != negated

/-- What is left of a text that begins with given bytes. -/
def dropBytes (start text : Bytes) : List Bytes :=
  (start.isPrefixOf? text).toList

mutual

/-- What a part leaves over of a text. -/
def Part.rests : Part → Bytes → List Bytes
  | .literal c, text => dropBytes (charBytes c) text
  | .one, text =>
      match text with
      | b :: rest => if isSlash b then [] else [rest]
      | [] => []
  | .run, text => endsUpTo isSlash text
  | .leading, text =>
      match text with
      | b :: rest =>
          if isSlash b then distinctEnds (text :: rest :: endsBehind isSlash rest)
          else distinctEnds (text :: endsBehind isSlash text)
      | [] => [text]
  | .trailing, text =>
      match text with
      | b :: rest => if isSlash b then ends rest else []
      | [] => []
  | .inner, text =>
      match text with
      | b :: rest => if isSlash b then distinctEnds (rest :: endsBehind isSlash rest) else []
      | [] => []
  | .oneOf negated ranges, text =>
      match text with
      | b :: rest => if classHolds negated ranges b then [rest] else []
      | [] => []
  | .alternatives branches, text =>
      if branches.all List.isEmpty then [text] else distinctEnds (branchRests branches text)

/-- What parts leave over of some of several texts, one after the other. -/
def rests : List Part → List Bytes → List Bytes
  | [], texts => texts
  | part :: more, texts => rests more (distinctEnds (texts.flatMap fun text => part.rests text))

/-- What some branch leaves over of a text.  Empty branches do not count. -/
def branchRests : List (List Part) → Bytes → List Bytes
  | [], _ => []
  | [] :: more, text => branchRests more text
  | (part :: parts) :: more, text => rests (part :: parts) [text] ++ branchRests more text

end

/-- Whether a pattern consists of a wildcard for directories alone, which then selects everything. -/
def isEverything : List Part → Bool
  | [.leading] => true
  | _ => false

def isMatch (pattern : List Part) (path : Bytes) : Bool :=
  isEverything pattern || (rests pattern [path]).any List.isEmpty

end EnvInventory.Ignore
