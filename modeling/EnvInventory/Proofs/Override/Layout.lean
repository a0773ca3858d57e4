import EnvInventory.Proofs.Override.Batches
import EnvInventory.Proofs.Override.IniLayout
import EnvInventory.Proofs.Override.SandboxLayout

/-!
# Documents laid out anew

A document may be laid out in many ways: with other blanks at the ends of its lines, and with blank lines and
comments wherever a line ends.  `Relaid` relates the lines of two layouts of one document.  A line that says nothing
leaves the scanner as it is, inside and outside of sections and tables, and any other line is looked at without the
blanks around it; so what is found in a document is the same in every layout.

The last line of a text is what stands behind its last line feed.  It is empty when the text ends in a line feed, so
leaving out that line feed, or adding it, is taking away a blank line or putting it in.

The main statement is `extract_of_relaid`.
-/

namespace EnvInventory.Override

open Text
open Sandbox (Padded)

/-! ### Layouts -/

/-- Two lines have one content, each with blanks of its own around it. -/
def Reindented (line line' : List Char) : Prop :=
  ∃ content, Padded content line ∧ Padded content line'

/-- Lines laid out anew: each line may get other blanks around it, and lines that say nothing may be put in and taken
away anywhere. -/
inductive Relaid (Silent : List Char → Prop) : List (List Char) → List (List Char) → Prop
  | nil : Relaid Silent [] []
  | keep {line line' : List Char} {lines lines' : List (List Char)} :
      Reindented line line' → Relaid Silent lines lines' → Relaid Silent (line :: lines) (line' :: lines')
  | insert {line : List Char} {lines lines' : List (List Char)} :
      Silent line → Relaid Silent lines lines' → Relaid Silent lines (line :: lines')
  | remove {line : List Char} {lines lines' : List (List Char)} :
      Silent line → Relaid Silent lines lines' → Relaid Silent (line :: lines) lines'

/-- The same document in another layout. -/
structure DocumentRelaid (Silent : List Char → Prop) (document document' : Document) : Prop where
  id : document'.id = document.id
  text : Relaid Silent (splitAll '\n' document.text.toList) (splitAll '\n' document'.text.toList)

/-- Blanks around a line are trimmed away. -/
theorem trim_of_padded_line {content line : List Char} (padded : Padded content line) :
    trim line = trim content := by
  obtain ⟨before, after, blanksBefore, blanksAfter, rfl⟩ := padded
  obtain ⟨inner, outer, blanksInner, blanksOuter, same⟩ := exists_eq_append_trim content
  have whole : before ++ content ++ after = (before ++ inner) ++ trim content ++ (outer ++ after) := by
    conv_lhs => rw [same]
    simp
  rw [whole, trim_append_append (blanksBefore.append blanksInner) (blanksOuter.append blanksAfter)
    (solid_trim content)]

/-- Lines differ in the blanks around them exactly if they are the same when they are trimmed. -/
theorem reindented_iff_trim_eq {line line' : List Char} : Reindented line line' ↔ trim line' = trim line := by
  constructor
  · rintro ⟨content, padded, padded'⟩
    rw [trim_of_padded_line padded, trim_of_padded_line padded']
  · intro same
    exact ⟨trim line, Sandbox.padded_trim line, same ▸ Sandbox.padded_trim line'⟩

theorem Reindented.trim_eq {line line' : List Char} (same : Reindented line line') : trim line' = trim line :=
  reindented_iff_trim_eq.1 same

/-! ### INI documents -/

namespace Ini

/-- Whatever section is open, the same keys are assigned. -/
theorem assignmentsIn_of_relaid {lines lines' : List (List Char)} (relaid : Relaid Silent lines lines')
    (sectionName : String) : assignmentsIn sectionName lines' = assignmentsIn sectionName lines := by
  induction relaid generalizing sectionName with
  | nil => rfl
  | @keep line line' _ _ same _ ih =>
      have alike : classify line' = classify line := by rw [classify, classify, same.trim_eq]
      simp only [assignmentsIn, alike, ih]
  | insert silent _ ih => rw [assignmentsIn_skip _ _ (classify_of_silent silent), ih]
  | remove silent _ ih => rw [assignmentsIn_skip _ _ (classify_of_silent silent), ih]

/-- An INI document of another layout has the same candidates. -/
theorem candidates_of_relaid {document document' : Document} (relaid : DocumentRelaid Silent document document') :
    candidates document' = candidates document := by
  have same : assignments document'.text = assignments document.text := by
    rw [assignments_eq_parts, assignments_eq_parts, assignmentsIn_of_relaid relaid.text]
  rw [candidates, candidates, same, relaid.id]

end Ini

/-! ### Sandbox documents -/

namespace Sandbox

/-- The scanner is fed the same lines, whatever its state. -/
theorem spoken_of_relaid {lines lines' : List (List Char)} (relaid : Relaid Silent lines lines') :
    spoken lines' = spoken lines := by
  induction relaid with
  | nil => rfl
  | keep same _ ih => rw [spoken_cons, spoken_cons, same.trim_eq, ih]
  | insert silent _ ih => rw [spoken_cons, if_pos (isSilent_of_silent silent), ih]
  | remove silent _ ih => rw [spoken_cons, if_pos (isSilent_of_silent silent), ih]

/-- A sandbox document of another layout has the same candidates. -/
theorem candidates_of_relaid {document document' : Document} (relaid : DocumentRelaid Silent document document') :
    candidates document' = candidates document := by
  have same : leaves document'.text = leaves document.text := by
    rw [leaves_eq_reported, leaves_eq_reported, spokenLines_eq_parts, spokenLines_eq_parts,
      spoken_of_relaid relaid.text]
  rw [candidates, candidates, same, relaid.id]

end Sandbox

/-! ### Settings -/

/-- The layout of documents does not show in the settings that are found in them, nor in the collisions.

In each document the blanks around lines can be changed, and silent lines can be put in and taken away.
What is equal is the whole result of the extraction, with the order of the records and of their documents.
Which lines are silent differs between the two kinds of documents. -/
theorem extract_of_relaid {ini ini' lua lua' : List Document}
    (iniRelaid : List.Forall₂ (DocumentRelaid Ini.Silent) ini ini')
    (luaRelaid : List.Forall₂ (DocumentRelaid Sandbox.Silent) lua lua') :
    Ini.extract ini' = Ini.extract ini ∧ Sandbox.extract lua' = Sandbox.extract lua :=
  ⟨merge_flatMap_of_alike (iniRelaid.imp fun _ _ => Ini.candidates_of_relaid),
    merge_flatMap_of_alike (luaRelaid.imp fun _ _ => Sandbox.candidates_of_relaid)⟩

/-- A document with two sections, and the same one with remarks, blanks and a line feed at its end. -/
def plainIni : Document := ⟨"server.ini", "[A]\nX=1\n[B]\nX=2"⟩

def remarkedIni : Document := ⟨"server.ini", "; X=0\n\t[A] \r\n\n X=1\n# [C]\n[B]\nX=2\t\n"⟩

/-- A document with a table in a table, and the same one with its lines moved, another remark and no line feed at
its end; `\x7b` and `\x7d` are the braces. -/
def plainLua : Document :=
  ⟨"server.lua", "SandboxVars = \x7b\nA = 1,\nB = \x7b\n-- C = 2\nD = 3\n\x7d\n\x7d\n"⟩

def remarkedLua : Document :=
  ⟨"server.lua", "-- \x7b\n\u00a0SandboxVars = \x7b\n A = 1,\n\n B = \x7b\n\tD = 3\r\n --\x7d\n \x7d\n\x7d"⟩

/-- Lines are indented otherwise and remarks are added, in a document of each kind. -/
theorem extract_of_remarked :
    List.Forall₂ (DocumentRelaid Ini.Silent) [plainIni] [remarkedIni] ∧
      List.Forall₂ (DocumentRelaid Sandbox.Silent) [plainLua] [remarkedLua] ∧
      Ini.extract [remarkedIni] = Ini.extract [plainIni] ∧
      Sandbox.extract [remarkedLua] = Sandbox.extract [plainLua] := by
  have kept : ∀ {line line' : List Char}, trim line' = trim line → Reindented line line' :=
    reindented_iff_trim_eq.2
  have empty : Blanks [] := Blanks.nil
  have iniLines : Relaid Ini.Silent ["[A]".toList, "X=1".toList, "[B]".toList, "X=2".toList]
      ["; X=0".toList, "\t[A] \r".toList, [], " X=1".toList, "# [C]".toList, "[B]".toList, "X=2\t".toList, []] :=
    .insert (.inr ⟨[], ';', " X=0".toList, empty, .inl rfl, rfl⟩) <|
      .keep (kept (by decide)) <| .insert (.inl empty) <| .keep (kept (by decide)) <|
      .insert (.inr ⟨[], '#', " [C]".toList, empty, .inr rfl, rfl⟩) <|
      .keep (kept rfl) <| .keep (kept (by decide)) <| .insert (.inl empty) .nil
  have luaLines : Relaid Sandbox.Silent
      ["SandboxVars = \x7b".toList, "A = 1,".toList, "B = \x7b".toList, "-- C = 2".toList, "D = 3".toList,
        "\x7d".toList, "\x7d".toList, []]
      ["-- \x7b".toList, "\u00a0SandboxVars = \x7b".toList, " A = 1,".toList, [], " B = \x7b".toList,
        "\tD = 3\r".toList, " --\x7d".toList, " \x7d".toList, "\x7d".toList] :=
    .insert (.inr ⟨[], " \x7b".toList, empty, rfl⟩) <|
      .keep (kept (by decide)) <| .keep (kept (by decide)) <| .insert (.inl empty) <|
      .keep (kept (by decide)) <| .remove (.inr ⟨[], " C = 2".toList, empty, rfl⟩) <|
      .keep (kept (by decide)) <| .insert (.inr ⟨[' '], ['}'], by decide, by decide⟩) <|
      .keep (kept (by decide)) <| .keep (kept rfl) <| .remove (.inl empty) .nil
  have iniRelaid : List.Forall₂ (DocumentRelaid Ini.Silent) [plainIni] [remarkedIni] :=
    .cons ⟨rfl, iniLines⟩ .nil
  have luaRelaid : List.Forall₂ (DocumentRelaid Sandbox.Silent) [plainLua] [remarkedLua] :=
    .cons ⟨rfl, luaLines⟩ .nil
  exact ⟨iniRelaid, luaRelaid, extract_of_relaid iniRelaid luaRelaid⟩

end EnvInventory.Override
