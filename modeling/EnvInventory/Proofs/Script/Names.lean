import EnvInventory.Proofs.Script.AssignedLines
import EnvInventory.Proofs.Text.Search

/-!
# The names that a script binds and references

A script is searched from left to right for one form at a time, and the search goes on behind each find.  No
reference, loop or declaration is lost by that: nothing of a form starts inside a find of the same form.  An
assignment can be found from the start of a blank line before it as well, so assignments are taken line by line.
So a name is bound exactly when one of the three binding forms occurs anywhere in the script,
`mem_boundNames_iff`, and it is expected from the environment exactly when it is not bound and stands behind a
dollar sign somewhere, `mem_externalReferences_iff`.
-/

namespace EnvInventory.Script

open Text

variable {before : Option Char} {text rest name : List Char} {value : String} {width : Nat}

/-! ### Nothing is hidden -/

/-- The width of a match is the number of characters that it used. -/
theorem width_of_found {c : Char} {used : List Char}
    (same : found name (c :: used ++ rest) rest = (value, width)) : width = used.length + 1 := by
  obtain ⟨-, rfl⟩ := Prod.mk.inj same
  rw [List.cons_append, List.length_cons, List.length_append]
  omega

/-- A match keeps its name as it is and counts what lies between both texts. -/
theorem found_toList (name : String) (text rest : List Char) :
    found name.toList text rest = (name, text.length - rest.length) := by
  rw [found, String.ofList_toList]

/-- A reference hides no other reference: what follows its dollar sign has no dollar sign in it. -/
theorem hidesNothing_referenceAt : HidesNothing referenceAt := by
  have outside : ∀ name, IsName name → '$' ∉ name := fun name isName member =>
    absurd (isName.isNameChar _ member) (by decide)
  refine hidesNothing_of_start '$' ?_ ?_
  · rintro before text value ⟨width, sees⟩
    obtain ⟨name, rest, -, rfl | ⟨rfl, -⟩, -⟩ := referenceAt_eq_some_iff.1 sees <;> rfl
  · intro before text value width sees
    obtain ⟨name, rest, isName, rfl | ⟨rfl, -⟩, same⟩ := referenceAt_eq_some_iff.1 sees
    · have split : '$' :: '{' :: (name ++ '}' :: rest) = '$' :: ('{' :: name ++ ['}']) ++ rest := by simp
      rw [split] at same
      refine ⟨_, rest, split, width_of_found same, ?_⟩
      simp [outside name isName]
    · exact ⟨name, rest, rfl, width_of_found same, outside name isName⟩

/-- A loop hides no other loop: no letter `f` follows the one it starts with. -/
theorem hidesNothing_loopAt : HidesNothing loopAt := by
  have solid : ∀ gap, Gap gap → 'f' ∉ gap := fun gap isGap member =>
    absurd (isGap.blanks _ member) (by decide)
  have outside : ∀ name, IsName name → 'f' ∉ name := fun name isName member =>
    absurd (isName.isNameChar _ member) (by decide)
  refine hidesNothing_of_start 'f' ?_ ?_
  · rintro before text value ⟨width, sees⟩
    obtain ⟨-, gap, name, gap', rest, -, -, -, rfl, -⟩ := loopAt_eq_some_iff.1 sees
    rfl
  · intro before text value width sees
    obtain ⟨-, gap, name, gap', rest, isGap, isName, isGap', rfl, -, same⟩ := loopAt_eq_some_iff.1 sees
    have split : "for".toList ++ (gap ++ (name ++ (gap' ++ ("in".toList ++ rest))))
        = 'f' :: ('o' :: 'r' :: (gap ++ name ++ gap' ++ ['i', 'n'])) ++ rest := by simp
    rw [split] at same
    refine ⟨_, rest, split, width_of_found same, ?_⟩
    simp [solid gap isGap, outside name isName, solid gap' isGap']

/-- A declaration hides no other declaration, although its keyword has its first letter twice. -/
theorem hidesNothing_localAt : HidesNothing localAt := by
  refine hidesNothing_of_inside fun before text value width sees => ?_
  obtain ⟨-, gap, name, rest, isGap, isName, rfl, -, same⟩ := localAt_eq_some_iff.1 sees
  have split : "local".toList ++ (gap ++ (name ++ rest))
      = 'l' :: (['o', 'c', 'a'] ++ 'l' :: (gap ++ name)) ++ rest := by simp
  rw [split] at same
  refine ⟨'l', _, rest, split, width_of_found same, ?_⟩
  rintro front d behind parts other ⟨width', inside⟩
  obtain ⟨noWord, gap', name', rest', -, -, starts, -⟩ := localAt_eq_some_iff.1 inside
  obtain rfl : d = 'l' := (List.cons.inj starts).1
  -- The keyword has its first letter once more, at its end, and there it is inside of a word.
  have free : 'l' ∉ gap ++ name := by
    rw [List.mem_append]
    rintro (member | member)
    · exact absurd (isGap.blanks _ member) (by decide)
    · exact absurd (isName.isNameChar _ member) (by decide)
  obtain ⟨rfl, -⟩ := (List.append_cons_inj_of_notMem (by decide) free).1 parts
  cases noWord

/-! ### Bindings -/

/-- A line of the text assigns the name: behind its leading blanks it starts with the name and an equals
sign. -/
def AssignedOnLine (text name : List Char) : Prop :=
  ∃ line ∈ splitAll '\n' text, ∃ rest, line.dropWhile isBlank = name ++ '=' :: rest

/-- The words `for` and `in` stand somewhere in the text, with the name between them and blanks around it. -/
def LoopedOver (text name : List Char) : Prop :=
  ∃ front gap gap' behind, Gap gap ∧ Gap gap'
    ∧ text = front ++ "for".toList ++ gap ++ name ++ gap' ++ "in".toList ++ behind
    ∧ isWordAt front.getLast? = false ∧ isWordAt behind.head? = false

/-- The words `local` and the name stand somewhere in the text, with blanks between them. -/
def DeclaredLocal (text name : List Char) : Prop :=
  ∃ front gap behind, Gap gap ∧ text = front ++ "local".toList ++ gap ++ name ++ behind
    ∧ isWordAt front.getLast? = false ∧ isWordAt behind.head? = false

/-- A name is assigned exactly if it is a name and stands before the equals sign of some line. -/
theorem mem_assignedNames_iff {text name : String} :
    name ∈ assignedNames text ↔ IsName name.toList ∧ AssignedOnLine text.toList name.toList := by
  rw [assignedNames_eq_parts, List.mem_filterMap]
  constructor
  · rintro ⟨line, member, documented⟩
    obtain ⟨gap, name, rest, blanks, isName, rfl, rfl⟩ := documentedKey?_eq_some_iff.1 documented
    rw [String.toList_ofList]
    refine ⟨isName, _, member, rest, ?_⟩
    rw [List.append_assoc, List.dropWhile_append_of_pos blanks, dropWhile_isBlank_of_solidHead (isName.solidHead _)]
  · rintro ⟨isName, line, member, rest, starts⟩
    have split : line = line.takeWhile isBlank ++ name.toList ++ '=' :: rest := by
      rw [List.append_assoc, ← starts, List.takeWhile_append_dropWhile]
    exact ⟨line, member, documentedKey?_eq_some_iff.2
      ⟨_, name.toList, rest, fun c => List.mem_takeWhile_imp, isName, split, String.ofList_toList⟩⟩

/-- A name is looped over exactly if it is a name and stands between `for` and `in` somewhere in the text. -/
theorem mem_loops_iff {text name : String} :
    name ∈ findAll loopAt text.toList ↔ IsName name.toList ∧ LoopedOver text.toList name.toList := by
  rw [mem_findAll_iff hidesNothing_loopAt]
  constructor
  · rintro ⟨front, _, split, -, width, sees⟩
    obtain ⟨noWord, gap, name, gap', behind, isGap, isName, isGap', rfl, ends, same⟩ :=
      loopAt_eq_some_iff.1 sees
    obtain rfl := (Prod.mk.inj same).1
    rw [String.toList_ofList]
    exact ⟨isName, front, gap, gap', behind, isGap, isGap', by simp [split], noWord, ends⟩
  · rintro ⟨isName, front, gap, gap', behind, isGap, isGap', split, noWord, ends⟩
    have sees : Sees loopAt name (front.getLast?,
        "for".toList ++ (gap ++ (name.toList ++ (gap' ++ ("in".toList ++ behind))))) :=
      ⟨_, loopAt_eq_some_iff.2 ⟨noWord, gap, name.toList, gap', behind, isGap, isName, isGap', rfl, ends,
        found_toList _ _ _⟩⟩
    exact ⟨front, _, by simpa using split, by simp, sees⟩

/-- A name is declared exactly if it is a name and stands behind `local` somewhere in the text. -/
theorem mem_locals_iff {text name : String} :
    name ∈ findAll localAt text.toList ↔ IsName name.toList ∧ DeclaredLocal text.toList name.toList := by
  rw [mem_findAll_iff hidesNothing_localAt]
  constructor
  · rintro ⟨front, _, split, -, width, sees⟩
    obtain ⟨noWord, gap, name, behind, isGap, isName, rfl, ends, same⟩ := localAt_eq_some_iff.1 sees
    obtain rfl := (Prod.mk.inj same).1
    rw [String.toList_ofList]
    exact ⟨isName, front, gap, behind, isGap, by simp [split], noWord, ends⟩
  · rintro ⟨isName, front, gap, behind, isGap, split, noWord, ends⟩
    have sees : Sees localAt name (front.getLast?,
        "local".toList ++ (gap ++ (name.toList ++ behind))) :=
      ⟨_, localAt_eq_some_iff.2 ⟨noWord, gap, name.toList, behind, isGap, isName, rfl, ends,
        found_toList _ _ _⟩⟩
    exact ⟨front, _, by simpa using split, by simp, sees⟩

/-- A name is bound by a script exactly when one of the three forms of a binding occurs somewhere in it.

The text is searched from left to right and goes on behind each find, so a form could be missed inside of
another one of its kind. It never is: at the places that a find steps over, the same form gives the same
name or nothing. Comments and quotes are not known to the search, and what stands in them counts. -/
theorem mem_boundNames_iff (text name : String) :
    name ∈ boundNames text
      ↔ IsName name.toList ∧ (AssignedOnLine text.toList name.toList ∨ LoopedOver text.toList name.toList
        ∨ DeclaredLocal text.toList name.toList) := by
  rw [boundNames, mem_sortedNames, List.mem_append, List.mem_append, mem_assignedNames_iff, mem_loops_iff,
    mem_locals_iff, ← and_or_left, ← and_or_left, or_assoc]

/-! ### References -/

/-- A dollar sign stands somewhere in the text, and behind it the name, either in braces or not followed by a
further character of a name. -/
def Referenced (text name : List Char) : Prop :=
  ∃ front behind, text = front ++ '$' :: behind
    ∧ ((∃ rest, behind = '{' :: (name ++ '}' :: rest)) ∨ ∃ rest, behind = name ++ rest ∧ EndsName rest)

/-- A name is referenced exactly if it is a name and stands behind a dollar sign, with or without a brace. -/
theorem mem_referencedNames_iff {text name : String} :
    name ∈ referencedNames text ↔ IsName name.toList ∧ Referenced text.toList name.toList := by
  rw [referencedNames, mem_sortedNames, mem_findAll_iff hidesNothing_referenceAt]
  constructor
  · rintro ⟨front, behind, split, -, width, sees⟩
    obtain ⟨name, rest, isName, forms, same⟩ := referenceAt_eq_some_iff.1 sees
    obtain rfl := (Prod.mk.inj same).1
    rw [String.toList_ofList]
    rcases forms with rfl | ⟨rfl, ends⟩
    · exact ⟨isName, front, _, split, Or.inl ⟨rest, rfl⟩⟩
    · exact ⟨isName, front, _, split, Or.inr ⟨rest, rfl, ends⟩⟩
  · rintro ⟨isName, front, behind, split, forms⟩
    refine ⟨front, _, split, List.cons_ne_nil _ _, ?_⟩
    rcases forms with ⟨rest, rfl⟩ | ⟨rest, rfl, ends⟩
    · exact ⟨_, referenceAt_eq_some_iff.2 ⟨name.toList, rest, isName, Or.inl rfl, found_toList _ _ _⟩⟩
    · exact ⟨_, referenceAt_eq_some_iff.2
        ⟨name.toList, rest, isName, Or.inr ⟨rfl, ends⟩, found_toList _ _ _⟩⟩

/-- A script expects from its environment the names that it does not bind and that stand behind a dollar
sign somewhere in it; they are listed in ascending order, each once.

Every dollar sign counts, those in comments, in quotes and behind a backslash too, and a name that is
bound anywhere is bound everywhere, also in front of its binding. -/
theorem mem_externalReferences_iff (text : String) :
    (externalReferences text).Pairwise (· < ·)
      ∧ ∀ name, name ∈ externalReferences text
        ↔ IsName name.toList ∧ name ∉ boundNames text ∧ Referenced text.toList name.toList := by
  constructor
  · exact (pairwise_lt_sortedNames _).filter _
  · intro name
    rw [externalReferences, List.mem_filter, mem_referencedNames_iff, and_assoc, and_comm (b := _ = true)]
    simp

end EnvInventory.Script
