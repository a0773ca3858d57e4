import EnvInventory.Glob.Read

/-!
# Well-formed globs

Not everything that can be read is a glob.  Two wildcards of the same kind must not touch, since one
of them would be idle, and neither must two slashes, since no path has an empty name.  The rules look
through groups: what stands at the end of an alternative touches what stands behind the group.
-/

namespace EnvInventory.Glob

/-- Whether a part is or holds a slash at one of its ends. -/
def Part.isBoundary : Part → Bool
  | .slash => true
  | .tree _ => true
  | _ => false

def Part.isRun : Part → Bool
  | .run => true
  | _ => false

/-- Whether a part is a wildcard for whole names. -/
def Part.isTree : Part → Bool
  | .tree _ => true
  | _ => false

def Part.isRooted : Part → Bool
  | .slash => true
  | .tree rooted => rooted
  | _ => false

mutual

/-- Whether a part can begin with one of a kind. -/
def Part.canBegin (kind : Part → Bool) : Part → Bool
  | .alternatives branches => branchesCanBegin kind branches
  | .repetition body _ _ => canBegin kind body
  | part => kind part

/-- Whether parts can begin with one of a kind. -/
def canBegin (kind : Part → Bool) : List Part → Bool
  | [] => false
  | part :: _ => part.canBegin kind

/-- Whether one of several branches can begin with one of a kind. -/
def branchesCanBegin (kind : Part → Bool) : List (List Part) → Bool
  | [] => false
  | branch :: rest => canBegin kind branch || branchesCanBegin kind rest

end

mutual

/-- Whether a part can end with one of a kind. -/
def Part.canEnd (kind : Part → Bool) : Part → Bool
  | .alternatives branches => branchesCanEnd kind branches
  | .repetition body _ _ => canEnd kind body
  | part => kind part

/-- Whether parts can end with one of a kind. -/
def canEnd (kind : Part → Bool) : List Part → Bool
  | [] => false
  | [part] => part.canEnd kind
  | _ :: next :: rest => canEnd kind (next :: rest)

/-- Whether one of several branches can end with one of a kind. -/
def branchesCanEnd (kind : Part → Bool) : List (List Part) → Bool
  | [] => false
  | branch :: rest => canEnd kind branch || branchesCanEnd kind rest

end

/-- What stands before and behind a group, where anything does. -/
structure Surroundings where
  before : Option Part
  behind : Option Part

/-- Whether something of a kind can stand directly before a group. -/
def Surroundings.precededBy (around : Surroundings) (kind : Part → Bool) : Bool :=
  around.before.any (·.canEnd kind)

/-- Whether something of a kind can stand directly behind a group. -/
def Surroundings.followedBy (around : Surroundings) (kind : Part → Bool) : Bool :=
  around.behind.any (·.canBegin kind)

/-- Whether parts touch what stands around their group without making a wildcard or a slash idle. -/
def fitsIn (around : Surroundings) (parts : List Part) : Bool :=
  let first := parts.head?
  let last := parts.getLast?
  !(first.any Part.isBoundary && around.precededBy Part.isBoundary)
    && !(last.any Part.isBoundary && around.followedBy Part.isBoundary)
    && !(first.any Part.isRun && around.precededBy Part.isRun)
    && !(last.any Part.isRun && around.followedBy Part.isRun)

/-- Whether parts consist of one wildcard for whole names. -/
def isSoleTree : List Part → Bool
  | [part] => part.isTree
  | _ => false

/-- Whether a branch may stand in its place.  At the start of a glob it must not begin with a
slash. -/
def branchFits (around : Surroundings) (branch : List Part) : Bool :=
  fitsIn around branch && !isSoleTree branch
    && !(around.before.isNone && branch.head?.any Part.isRooted)

/-- Whether a body may be repeated with the given bounds in its place: what it ends with must not
touch what it begins with. -/
def bodyFits (around : Surroundings) (body : List Part) (least : Nat) (most : Option Nat) : Bool :=
  let first := body.head?
  let last := body.getLast?
  fitsIn around body && !isSoleTree body
    && !(around.before.isNone && least == 0 && first.any Part.isRooted)
    && !(first.any Part.isBoundary && last.any Part.isBoundary)
    && !(first.any Part.isRun && last.any Part.isRun && most.isNone)
    && most.all fun most => least ≤ most && most != 0

/-- Whether no slash or wildcard for whole names has another one beside it. -/
def boundariesApart : List Part → Bool
  | a :: b :: rest => !(a.isBoundary && b.isBoundary) && boundariesApart (b :: rest)
  | _ => true

mutual

/-- Whether a part is well-formed in its place. -/
def Part.wellFormed (around : Surroundings) : Part → Bool
  | .alternatives branches => branchesWellFormed around branches
  | .repetition body least most =>
      bodyFits around body least most && boundariesApart body
        && partsWellFormed around around.before body
  | _ => true

/-- Whether the branches of alternatives are well-formed. -/
def branchesWellFormed (around : Surroundings) : List (List Part) → Bool
  | [] => true
  | branch :: rest =>
      branchFits around branch && boundariesApart branch
        && partsWellFormed around around.before branch && branchesWellFormed around rest

/-- Whether parts are well-formed; `before` stands before the first of them, and what surrounds the
whole group stands behind the last. -/
def partsWellFormed (around : Surroundings) (before : Option Part) : List Part → Bool
  | [] => true
  | part :: rest =>
      part.wellFormed ⟨before, rest.head?.or around.behind⟩
        && partsWellFormed around (some part) rest

end

def wellFormed (glob : Glob) : Bool :=
  boundariesApart glob && partsWellFormed ⟨none, none⟩ none glob

/-- Read a glob; none if the text is not a well-formed one. -/
def read? (text : String) : Option Glob :=
  (readAll text.toList).filter wellFormed

end EnvInventory.Glob
