import EnvInventory.Glob.Basic

/-!
# Reading globs

The reader goes through a glob from left to right.  A mark in parentheses turns the distinction of
case off or on for the literals behind it, whatever group they stand in.  Two asterisks stand for
whole names, so they must have slashes or the ends of their group around them.

A class obeys the setting of the last literal before it in its own or an enclosing group, and before
the first literal it distinguishes case.
-/

namespace EnvInventory.Glob

/-- Characters that stand for themselves only behind a backslash. -/
def isSpecial (c : Char) : Bool :=
  ['?', '*', '$', ':', '<', '>', '(', ')', '[', ']', '{', '}', ',', '\\'].contains c

/-- Whether a reader stands at the end of what it has to read: of the whole glob, of an alternative
or of the body of a repetition. -/
inductive Ending where
  | whole
  | alternative
  | body
deriving Repr, DecidableEq, Inhabited

/-- Whether a text begins with an end of the given kind. -/
def Ending.isAt : Ending → List Char → Bool
  | .whole, text => text.isEmpty
  | .alternative, text => text.head? == some ',' || text.head? == some '}'
  | .body, text => text.head? == some ':' || text.head? == some '>'

/-! ### Case marks -/

/-- The settings inside a case mark, up to its closing parenthesis: the last one counts. -/
def readToggles : Option Bool → List Char → Option (Bool × List Char)
  | some anyCase, ')' :: rest => some (anyCase, rest)
  | _, 'i' :: rest => readToggles (some true) rest
  | _, '-' :: 'i' :: rest => readToggles (some false) rest
  | _, _ => none

/-- Step over case marks, of which there may be as many as the fuel says. -/
def readMarks : Nat → Bool → List Char → Bool × List Char
  | fuel + 1, anyCase, '(' :: '?' :: rest =>
      match readToggles none rest with
      | some (anyCase, rest) => readMarks fuel anyCase rest
      | none => (anyCase, '(' :: '?' :: rest)
  | _, anyCase, text => (anyCase, text)

/-! ### Literals and classes -/

/-- A literal at the start of a text: characters up to the next special one or slash, a backslash
making the special character behind it ordinary.  None if a backslash stands before any other
character. -/
def readLiteral : List Char → Option (List Char × List Char)
  | '\\' :: c :: rest =>
      if isSpecial c then (readLiteral rest).map fun (text, rest) => (c :: text, rest) else none
  | c :: rest =>
      if c = '/' then some ([], c :: rest)
      else if c = '\\' then none
      else if isSpecial c then some ([], c :: rest)
      else (readLiteral rest).map fun (text, rest) => (c :: text, rest)
  | [] => some ([], [])

def readClassChar : List Char → Option (Char × List Char)
  | '\\' :: c :: rest =>
      if c = '[' ∨ c = ']' ∨ c = '-' ∨ c = '!' ∨ c = '\\' then some (c, rest) else none
  | c :: rest => if c = '[' ∨ c = ']' ∨ c = '-' ∨ c = '\\' then none else some (c, rest)
  | [] => none

/-- The members of a class up to its closing bracket; the fuel bounds their number. -/
def readMembers : Nat → List Char → Option (List Member × List Char)
  | 0, _ => none
  | fuel + 1, text =>
      match readClassChar text with
      | none => none
      | some (first, rest) =>
          let (member, rest) :=
            match rest with
            | '-' :: after =>
                match readClassChar after with
                | some (last, after) => (Member.range first last, after)
                | none => (Member.char first, rest)
            | rest => (Member.char first, rest)
          match rest with
          | ']' :: rest => some ([member], rest)
          | rest => (readMembers fuel rest).map fun (members, rest) => (member :: members, rest)

def readClass (anyCase : Bool) (text : List Char) : Option (CharClass × List Char) :=
  let (negated, text) :=
    match text with
    | '!' :: rest => (true, rest)
    | text => (false, text)
  (readMembers text.length text).map fun (members, rest) => (⟨negated, members, anyCase⟩, rest)

/-! ### Repetition bounds -/

def readCount (text : List Char) : Option (Nat × List Char) :=
  let digits := text.takeWhile Char.isDigit
  let count := digits.foldl (fun n c => n * 10 + (c.toNat - 48)) 0
  if digits = [] ∨ 0x10000000000000000 ≤ count then none
  else some (count, text.dropWhile Char.isDigit)

/-- The bounds behind the colon of a repetition, up to its closing bracket.  A single number is both
bounds, a number and a comma leave the upper bound open, and no number at all means one or more. -/
def readBounds (text : List Char) : Option ((Nat × Option Nat) × List Char) :=
  match readCount text with
  | some (least, ',' :: rest) =>
      match readCount rest with
      | some (most, '>' :: rest) => some ((least, some most), rest)
      | some _ => none
      | none =>
          match rest with
          | '>' :: rest => some ((least, none), rest)
          | _ => none
  | some (count, '>' :: rest) => some ((count, some count), rest)
  | some _ => none
  | none =>
      match text with
      | '>' :: rest => some ((1, none), rest)
      | _ => none

/-! ### Wildcards -/

/-- Whole names at the start of a text: two asterisks with a slash or an end behind them, the slash
being part of the wildcard. -/
def treeAt? (ending : Ending) : List Char → Option (List Char)
  | '*' :: '*' :: '/' :: rest => some rest
  | '*' :: '*' :: rest => if ending.isAt rest then some rest else none
  | _ => none

/-- A wildcard at the start of a text.  `atStart` says that nothing stands before it in its group.
A wildcard for a run cannot have another one directly behind it. -/
def wildcardAt? (ending : Ending) (atStart : Bool) : List Char → Option (Part × List Char)
  | '?' :: rest => some (.one, rest)
  | '/' :: rest => (treeAt? ending rest).map fun rest => (.tree true, rest)
  | '$' :: rest => runBefore? rest
  | '*' :: rest =>
      match (if atStart then treeAt? ending ('*' :: rest) else none) with
      | some rest => some (.tree false, rest)
      | none => runBefore? rest
  | _ => none
where
  /-- A run, if what follows it allows for one. -/
  runBefore? (rest : List Char) : Option (Part × List Char) :=
    match (readMarks rest.length false rest).2 with
    | '*' :: _ => none
    | '$' :: _ => none
    | [] => if ending.isAt [] ∧ rest = [] then some (.run, rest) else none
    | _ => some (.run, rest)

/-! ### Parts -/

/-- What the reader carries along: the setting of case for literals, and the one of the last
literal. -/
structure CaseState where
  literals : Bool
  classes : Bool
deriving Repr, DecidableEq, Inhabited

mutual

/-- The parts up to an end, of which there must be at least one; the rest begins with the end. -/
def readParts (ending : Ending) : Nat → Bool → CaseState → List Char →
    Option (List Part × CaseState × List Char)
  | 0, _, _, _ => none
  | fuel + 1, atStart, state, text =>
      match readPart ending fuel atStart state text with
      | none => none
      | some (part, state, rest) =>
          if ending.isAt rest then some ([part], state, rest)
          else
            (readParts ending fuel false state rest).map fun (parts, state, rest) =>
              (part :: parts, state, rest)

def readPart (ending : Ending) : Nat → Bool → CaseState → List Char →
    Option (Part × CaseState × List Char)
  | 0, _, _, _ => none
  | fuel + 1, atStart, state, text =>
      let (anyCase, text) := readMarks text.length state.literals text
      let state := { state with literals := anyCase }
      match wildcardAt? ending atStart text with
      | some (part, rest) => some (part, state, rest)
      | none =>
          match text with
          | '/' :: rest => some (.slash, state, rest)
          | '[' :: rest =>
              (readClass state.classes rest).map fun (chars, rest) => (.oneOf chars, state, rest)
          | '{' :: rest =>
              (readBranches fuel state rest).map fun (branches, literals, rest) =>
                (.alternatives branches, { state with literals := literals }, rest)
          | '<' :: rest =>
              match readParts .body fuel true state rest with
              | some (body, inner, ':' :: rest) =>
                  (readBounds rest).map fun ((least, most), rest) =>
                    (.repetition body least most, { state with literals := inner.literals }, rest)
              | some (body, inner, '>' :: rest) =>
                  some (.repetition body 0 none, { state with literals := inner.literals }, rest)
              | _ => none
          | text =>
              match readLiteral text with
              | some (literal, rest) =>
                  if literal = [] then none
                  else some (.literal literal anyCase, ⟨anyCase, anyCase⟩, rest)
              | none => none

/-- The branches of alternatives up to the closing brace, and the setting of case behind it. -/
def readBranches : Nat → CaseState → List Char →
    Option (List (List Part) × Bool × List Char)
  | 0, _, _ => none
  | fuel + 1, state, text =>
      match readParts .alternative fuel true state text with
      | some (parts, inner, ',' :: rest) =>
          (readBranches fuel { state with literals := inner.literals } rest).map
            fun (branches, literals, rest) => (parts :: branches, literals, rest)
      | some (parts, inner, '}' :: rest) => some ([parts], inner.literals, rest)
      | _ => none

end

/-- Enough fuel for a text. -/
def fuelFor (text : List Char) : Nat :=
  3 * text.length + 3

/-- The parts of a whole glob.  The empty glob has none. -/
def readAll (text : List Char) : Option Glob :=
  if text = [] then some []
  else (readParts .whole (fuelFor text) true ⟨false, false⟩ text).map fun (parts, _, _) => parts

end EnvInventory.Glob
