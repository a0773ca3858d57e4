import EnvInventory.Glob.Basic
import EnvInventory.Text.CaseFold
import EnvInventory.Text.Parts

/-!
# Matching globs

A part of a glob takes some characters from the front of a path.  `rests` follows all the texts that
can be left over from part to part, and a path matches when the empty text is left over at the end.
Equal texts are kept once, so there are never more of them than the path has ends.

What a wildcard for whole names takes depends on its place: at the start of the glob it ends behind
a slash, at the end it begins with one, between other parts it does both, and alone it takes
everything.  Inside a group the place of the outermost group counts as well.
-/

namespace EnvInventory.Glob

open Text

/-- Place of a part in the sequence it belongs to. -/
inductive Place where
  | first
  | middle
  | last
  | only
deriving Repr, DecidableEq, Inhabited

/-- The place that has the given neighbours. -/
def Place.of (hasBefore hasBehind : Bool) : Place :=
  match hasBefore, hasBehind with
  | false, false => .only
  | false, true => .first
  | true, true => .middle
  | true, false => .last

def isSlash (c : Char) : Bool :=
  c == '/'

/-- What is left when a text begins with a literal. -/
def dropLiteral (anyCase : Bool) : List Char → List Char → Option (List Char)
  | [], text => some text
  | _ :: _, [] => none
  | a :: literal, c :: text =>
      if a = c ∨ (anyCase ∧ foldCase a = foldCase c) then dropLiteral anyCase literal text
      else none

def Member.holds (c : Char) : Member → Bool
  | .char member => c == member
  | .range first last => first ≤ c && c ≤ last

/-- Whether a range runs backwards, which leaves its class without any character. -/
def Member.isBackward : Member → Bool
  | .char _ => false
  | .range first last => decide (last < first)

/-- Whether a class holds a character.  No class holds the slash. -/
def CharClass.holds (chars : CharClass) (c : Char) : Bool :=
  let variants := if chars.anyCase then caseVariants c else [c]
  c != '/' && !chars.members.any Member.isBackward
    && (chars.members.any fun member => variants.any fun c => member.holds c) != chars.negated

/-- What whole names at a place leave over. -/
def treeRests (place : Place) (rooted : Bool) (text : List Char) : List (List Char) :=
  match place with
  | .only => ends text
  | .middle =>
      match text with
      | '/' :: rest => distinctEnds (rest :: endsBehind isSlash rest)
      | _ => []
  | .first =>
      if rooted then
        match text with
        | '/' :: rest => ends rest
        | _ => []
      else
        match text with
        | '/' :: rest => distinctEnds (text :: rest :: endsBehind isSlash rest)
        | _ => distinctEnds (text :: endsBehind isSlash text)
  | .last =>
      match text with
      | '/' :: rest => text :: ends rest
      | _ => [text]

/-- Place of whole names inside a group: at the inner side of a group they stand between parts. -/
def Place.within (outer : Option Place) : Place → Place
  | .first => if outer = some .middle ∨ outer = some .last then .middle else .first
  | .last => if outer = some .first ∨ outer = some .middle then .middle else .last
  | place => place

/-- Apply a step a number of times, each time to all that is left over. -/
def stepTimes (step : List Char → List (List Char)) : Nat → List (List Char) → List (List Char)
  | 0, rests => rests
  | _, [] => []
  | times + 1, rest :: rests => stepTimes step times (distinctEnds ((rest :: rests).flatMap step))

def stepUpTo (step : List Char → List (List Char)) : Nat → List (List Char) → List (List Char)
  | 0, rests => rests
  | _, [] => []
  | times + 1, rest :: rests =>
      distinctEnds (rest :: rests ++ stepUpTo step times (distinctEnds ((rest :: rests).flatMap step)))

mutual

/-- What a part leaves over of a text. -/
def Part.rests (outer : Option Place) (place : Place) : Part → List Char → List (List Char)
  | .literal literal anyCase, text => (dropLiteral anyCase literal text).toList
  | .slash, text =>
      match text with
      | '/' :: rest => [rest]
      | _ => []
  | .one, text =>
      match text with
      | c :: rest => if c = '/' then [] else [rest]
      | [] => []
  | .run, text => endsUpTo isSlash text
  | .tree rooted, text => treeRests (place.within outer) rooted text
  | .oneOf chars, text =>
      match text with
      | c :: rest => if chars.holds c then [rest] else []
      | [] => []
  | .alternatives branches, text => distinctEnds (branchRests (outer.or (some place)) branches text)
  | .repetition body least most, text =>
      let step := fun text => rests (outer.or (some place)) false body [text]
      let more :=
        match most with
        | some most => min (most - least) (text.length + 1)
        | none => text.length + 1
      stepUpTo step more (stepTimes step least [text])

/-- What parts leave over of some of several texts, one after the other; `hasBefore` says that other
parts stand before them. -/
def rests (outer : Option Place) (hasBefore : Bool) :
    List Part → List (List Char) → List (List Char)
  | [], texts => texts
  | part :: more, texts =>
      let place := Place.of hasBefore !more.isEmpty
      rests outer true more (distinctEnds (texts.flatMap fun text => part.rests outer place text))

/-- What some branch leaves over of a text. -/
def branchRests (outer : Option Place) : List (List Part) → List Char → List (List Char)
  | [], _ => []
  | branch :: more, text => rests outer false branch [text] ++ branchRests outer more text

end

def isMatch (glob : Glob) (path : String) : Bool :=
  (rests none false glob [path.toList]).any List.isEmpty

end EnvInventory.Glob
