import EnvInventory.Override.Ini
import EnvInventory.Override.Sandbox
import EnvInventory.Proofs.Naming.IniKey
import EnvInventory.Proofs.Naming.SandboxPath

/-!
# Settings told apart by name and identity

The form in which a setting is shown to people does not determine it: the key `[A] B` outside every
section is shown like the key `B` of section `A`, and a dot in a segment is shown like one between two
segments.  Together with the name of the variable it does, because the mark that divides the name is
another character than the one that divides the shown form.

`IniOverride.ofKey_determined` and `SandboxOverride.ofPath_determined` say so for the two kinds of
settings, for all texts.
-/

namespace EnvInventory.Override

open Naming

/-! ### Keys of INI documents -/

/-- Two texts around a mark are determined when they are also known around another mark. -/
theorem eq_of_append_marks {first second : Char} (different : first ≠ second)
    {before after before' after' : List Char} {behind behind' : List Char}
    (one : before ++ first :: after = before' ++ first :: after')
    (other : before ++ second :: behind = before' ++ second :: behind') : before = before' := by
  induction before generalizing before' with
  | nil =>
      cases before' with
      | nil => rfl
      | cons c before' =>
          have isFirst : first = c := (List.cons.inj one).1
          have isSecond : second = c := (List.cons.inj other).1
          exact absurd (isFirst.trans isSecond.symm) different
  | cons c before ih =>
      cases before' with
      | nil =>
          have isFirst : c = first := (List.cons.inj one).1
          have isSecond : c = second := (List.cons.inj other).1
          exact absurd (isFirst.symm.trans isSecond) different
      | cons d before' =>
          have same : c = d := (List.cons.inj one).1
          rw [same, ih (List.cons.inj one).2 (List.cons.inj other).2]

namespace IniOverride

theorem identity_ofKey_empty (key : String) : (ofKey "" key).identity = key := by
  simp [identity, ofKey]

/-- A key in a section is shown behind the name of the section in brackets. -/
theorem identity_ofKey {sectionName : String} (inSection : sectionName ≠ "") (key : String) :
    (ofKey sectionName key).identity = "[" ++ sectionName ++ "] " ++ key := by
  simp [identity, ofKey, inSection]

/-- A key outside every section and one inside a section are never alike in name and identity: the
brackets and the blank are one character longer than the mark. -/
theorem not_determined_of_empty {sectionName key key' : String} (inSection : sectionName ≠ "")
    (name : iniName "" key = iniName sectionName key')
    (shown : (ofKey "" key).identity = (ofKey sectionName key').identity) : False := by
  rw [iniName_empty, iniName_of_ne inSection] at name
  rw [identity_ofKey_empty, identity_ofKey inSection] at shown
  have nameLength := congrArg String.length name
  have shownLength := congrArg String.length shown
  have marks : sectionMark.length = 2 ∧ "[".length = 1 ∧ "] ".length = 2 := by decide
  simp only [String.length_append] at nameLength shownLength
  omega

/-- Keys that agree in name and identity are the same key of the same section. Each alone leaves open
where the section ends, but the name and the shown form have different marks there, and only one place
fits both. -/
theorem ofKey_determined {sectionName sectionName' key key' : String}
    (name : iniName sectionName key = iniName sectionName' key')
    (shown : (ofKey sectionName key).identity = (ofKey sectionName' key').identity) :
    sectionName = sectionName' ∧ key = key' := by
  by_cases outside : sectionName = ""
  · by_cases outside' : sectionName' = ""
    · subst outside outside'
      rw [identity_ofKey_empty, identity_ofKey_empty] at shown
      exact ⟨rfl, shown⟩
    · subst outside
      exact (not_determined_of_empty outside' name shown).elim
  · by_cases outside' : sectionName' = ""
    · subst outside'
      exact (not_determined_of_empty outside name.symm shown.symm).elim
    · rw [iniName_of_ne outside, iniName_of_ne outside'] at name
      rw [identity_ofKey outside, identity_ofKey outside'] at shown
      have nameTexts := congrArg String.toList name
      have shownTexts := congrArg String.toList shown
      simp only [String.toList_append, List.append_assoc, List.append_cancel_left_eq]
        at nameTexts shownTexts
      have sections : sectionName.toList = sectionName'.toList :=
        eq_of_append_marks (by decide) nameTexts shownTexts
      have same : sectionName = sectionName' := String.toList_inj.1 sections
      subst same
      refine ⟨rfl, String.toList_inj.1 ?_⟩
      simpa using nameTexts

/-- The shown form alone does not tell these two keys apart. -/
example : (ofKey "" "[A] B").identity = (ofKey "A" "B").identity := by decide

end IniOverride

/-! ### Paths of sandbox leaves -/

namespace SandboxOverride

theorem dotted_cut {path : List (List Char)} (someSegment : path ≠ []) :
    ['.'].intercalate ([] :: path) = '.' :: ['.'].intercalate path := by
  rw [List.intercalate_cons_of_ne_nil someSegment]
  rfl

theorem dotted_char (c : Char) (segment : List Char) (rest : List (List Char)) :
    ['.'].intercalate ((c :: segment) :: rest) = c :: ['.'].intercalate (segment :: rest) := by
  cases rest with
  | nil => simp
  | cons next rest => simp

/-- Paths that agree as written in a name and as shown with dots are the same.  The induction goes
along one path and meets, in the other, a cut or a character at the same place: a dot is shown for a
cut as well as for itself, but only a cut is written as an underscore then. -/
theorem eq_of_encodePath_eq_of_dotted_eq {path other : List (List Char)} (someSegment : path ≠ [])
    (otherSegment : other ≠ []) (name : encodePath path = encodePath other)
    (shown : ['.'].intercalate path = ['.'].intercalate other) : path = other := by
  induction path, someSegment using path_induction generalizing other with
  | last =>
      cases other, otherSegment using path_induction with
      | last => rfl
      | cut other otherSegment =>
          rw [dotted_cut otherSegment] at shown
          simp at shown
      | char c segment rest =>
          rw [dotted_char] at shown
          simp at shown
  | cut path someSegment ih =>
      rw [encodePath_cut someSegment] at name
      rw [dotted_cut someSegment] at shown
      cases other, otherSegment using path_induction with
      | last => simp at shown
      | cut other otherSegment =>
          rw [encodePath_cut otherSegment] at name
          rw [dotted_cut otherSegment] at shown
          rw [ih otherSegment (List.cons.inj name).2 (List.cons.inj shown).2]
      | char c segment rest =>
          rw [dotted_char] at shown
          have dot : '.' = c := (List.cons.inj shown).1
          subst dot
          rw [encodePath_char] at name
          simp at name
  | char c segment rest ih =>
      rw [encodePath_char] at name
      rw [dotted_char] at shown
      cases other, otherSegment using path_induction with
      | last => simp at shown
      | cut other otherSegment =>
          rw [dotted_cut otherSegment] at shown
          have dot : c = '.' := (List.cons.inj shown).1
          subst dot
          rw [encodePath_cut otherSegment] at name
          simp at name
      | char d segment' rest' =>
          rw [dotted_char] at shown
          have same : c = d := (List.cons.inj shown).1
          subst same
          rw [encodePath_char, List.append_cancel_left_eq] at name
          have tails := ih (List.cons_ne_nil _ _) name (List.cons.inj shown).2
          rw [(List.cons.inj tails).1, (List.cons.inj tails).2]

/-- Paths that agree in name and shown form are the same. Each alone leaves open where a segment ends; the
first segment ends where both are cut, and the rest follows by induction. -/
theorem ofPath_determined {path other : List String} (someSegment : path ≠ [])
    (otherSegment : other ≠ []) (name : sandboxName path = sandboxName other)
    (shown : (ofPath path).path = (ofPath other).path) : path = other := by
  have nameTexts := congrArg String.toList name
  have shownTexts := congrArg String.toList shown
  simp only [sandboxName, String.toList_append, String.toList_ofList,
    List.append_cancel_left_eq] at nameTexts
  rw [ofPath, ofPath, Text.toList_joinWith, Text.toList_joinWith] at shownTexts
  have texts : path.map String.toList = other.map String.toList :=
    eq_of_encodePath_eq_of_dotted_eq (by simpa using someSegment) (by simpa using otherSegment)
      nameTexts shownTexts
  exact List.map_injective_iff.2 (fun _ _ => String.toList_inj.1) texts

end SandboxOverride

end EnvInventory.Override
