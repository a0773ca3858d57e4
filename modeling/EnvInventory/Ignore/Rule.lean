import EnvInventory.Ignore.Pattern
import EnvInventory.Text.Blank
import EnvInventory.Text.Parts

/-!
# Rules of ignore files

Each line of an ignore file is a rule, apart from blank lines and comments.  An exclamation mark makes
it a rule for what is kept after all, a slash at the end restricts it to directories, and a slash at
the start or inside ties it to the directory of the file; without one it holds at any depth.  The last
rule of a file that matches decides.
-/

namespace EnvInventory.Ignore

open Text
open Encoding (Bytes)

/-- A rule. -/
structure Rule where
  pattern : List Part
  /-- Whether matching paths are kept instead of being ignored. -/
  keeps : Bool
  /-- Whether only directories match. -/
  directoriesOnly : Bool
deriving Repr, Inhabited

/-- What rules say about a path. -/
inductive Verdict where
  | silent
  | ignored
  | kept
deriving Repr, DecidableEq, Inhabited

/-- The verdict that counts when the second one is only asked for if the first one is silent. -/
def Verdict.orElse (first second : Verdict) : Verdict :=
  match first with
  | .silent => second
  | verdict => verdict

/-- Drop blanks at the end of a line, unless the last one has a backslash in front. -/
def trimLine (line : List Char) : List Char :=
  match line.reverse with
  | ' ' :: '\\' :: _ => line
  | _ => trimEnd line

/-- Drop one character in front if it is there, and say whether it was. -/
def takeMark (mark : Char) : List Char → Bool × List Char
  | c :: rest => if c = mark then (true, rest) else (false, c :: rest)
  | [] => (false, [])

/-- Drop a slash at the end, with a backslash before it, and say whether there was one. -/
def takeEndSlash (text : List Char) : Bool × List Char :=
  match text.reverse with
  | '/' :: '\\' :: rest => (true, rest.reverse)
  | '/' :: rest => (true, rest.reverse)
  | _ => (false, text)

/-- Let a pattern without a slash match at any depth. -/
def anywhere (text : List Char) : List Char :=
  if (dropStart? "**/" text).isSome ∨ text = ['*', '*'] then text else '*' :: '*' :: '/' :: text

/-- Keep a pattern for everything below a directory from matching the directory itself. -/
def belowOnly (text : List Char) : List Char :=
  match text.reverse with
  | '*' :: '*' :: '/' :: _ => text ++ ['/', '*']
  | _ => text

/-- The rule of a line; none for a comment, a blank line or a malformed pattern. -/
def readRule (raw : List Char) : Option Rule :=
  let line := trimLine raw
  if raw.head? = some '#' ∨ line = [] then none
  else
    let (keeps, anchored, text) :=
      match line with
      | '\\' :: '!' :: rest => (false, false, '!' :: rest)
      | '\\' :: '#' :: rest => (false, false, '#' :: rest)
      | line =>
          let (keeps, rest) := takeMark '!' line
          let (anchored, rest) := takeMark '/' rest
          (keeps, anchored, rest)
    let (directoriesOnly, text) := takeEndSlash text
    let text := if anchored || text.contains '/' then text else anywhere text
    (readPattern (belowOnly text)).map fun pattern => ⟨pattern, keeps, directoriesOnly⟩

/-- The rules of an ignore file.  Reading stops at a line that is no UTF-8. -/
def readRules (content : Bytes) : List Rule :=
  let rawLines := lines (content.map fun b => Char.ofNat b.toNat)
  let texts := rawLines.map fun line =>
    Encoding.decodeUtf8? (line.map fun c => c.toNat.toUInt8)
  let readable := (texts.takeWhile Option.isSome).filterMap id
  let unmarked :=
    match readable with
    | first :: rest => first.toList.dropWhile (· == '\uFEFF') :: rest.map String.toList
    | [] => []
  unmarked.filterMap readRule

/-- The verdict of rules on a path: that of the last rule that matches. -/
def verdict (rules : List Rule) (path : Bytes) (isDirectory : Bool) : Verdict :=
  match rules.reverse.find? fun rule =>
    (isDirectory || !rule.directoriesOnly) && isMatch rule.pattern path with
  | some rule => if rule.keeps then .kept else .ignored
  | none => .silent

end EnvInventory.Ignore
