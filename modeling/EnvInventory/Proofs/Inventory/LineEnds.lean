import EnvInventory.Proofs.Override.Batches
import EnvInventory.Proofs.Override.IniLayout
import EnvInventory.Proofs.Script.LineEnds

/-!
# Ends of lines do not show

Carriage returns before line feeds change nothing of what is read from a file, whatever its kind.  The script
and the template are read by patterns that take no notice of them, the settings files line by line without
the blanks around a line.  The main statement is `scans_of_returned`.
-/

namespace EnvInventory

open Text

/-- The same document, with carriage returns put in front of some line feeds. -/
def DocumentReturned (document document' : Document) : Prop :=
  document'.id = document.id ∧ Returned document.text.toList document'.text.toList

namespace Override

/-- An INI document gives the same keys, since lines are trimmed before they are read. -/
theorem Ini.candidates_of_returned {document document' : Document}
    (returned : DocumentReturned document document') :
    Ini.candidates document' = Ini.candidates document := by
  obtain ⟨sameId, texts⟩ := returned
  have same : assignments document'.text = assignments document.text := by
    rw [assignments, assignments, ← assignmentsIn_map_trim, texts.map_trim_lines, assignmentsIn_map_trim]
  rw [Ini.candidates, Ini.candidates, same, sameId]

/-- A sandbox document gives the same leaves, since lines are trimmed before they are fed to the scanner. -/
theorem Sandbox.candidates_of_returned {document document' : Document}
    (returned : DocumentReturned document document') :
    Sandbox.candidates document' = Sandbox.candidates document := by
  obtain ⟨sameId, texts⟩ := returned
  have same : spokenLines document'.text = spokenLines document.text := by
    rw [spokenLines, spokenLines, texts.map_trim_lines]
  rw [Sandbox.candidates, Sandbox.candidates, leaves, leaves, outcomes, outcomes, same, sameId]

end Override

/-- Nothing that is read from scripts, templates and settings files depends on whether lines end in a line
feed alone or with carriage returns before it.

Any line feeds may get carriage returns, several of them included; a document keeps its identifier. So the
same holds for whole files of either line ending, and for files that mix them. -/
theorem scans_of_returned :
    (∀ text text' : String, Returned text.toList text'.toList →
        Script.externalReferences text' = Script.externalReferences text
          ∧ Script.referencedNames text' = Script.referencedNames text
          ∧ Script.boundNames text' = Script.boundNames text
          ∧ Script.documentedKeys text' = Script.documentedKeys text)
      ∧ ∀ documents documents' : List Document, List.Forall₂ DocumentReturned documents documents' →
          Override.Ini.extract documents' = Override.Ini.extract documents
            ∧ Override.Sandbox.extract documents' = Override.Sandbox.extract documents := by
  constructor
  · intro text text' returned
    obtain ⟨external, referenced, bound⟩ := Script.names_of_returned returned
    exact ⟨external, referenced, bound, Script.documentedKeys_of_returned returned⟩
  · intro documents documents' returned
    exact ⟨Override.merge_flatMap_of_alike (returned.imp fun _ _ => Override.Ini.candidates_of_returned),
      Override.merge_flatMap_of_alike (returned.imp fun _ _ => Override.Sandbox.candidates_of_returned)⟩

/-- A text in which one line ends in a line feed and one in both characters. -/
def mixedEnds : String := "A=$B\n$C\r\n"

/-- The same text, with one carriage return more in each line. -/
def moreReturns : String := "A=$B\r\n$C\r\r\n"

/-- The ends of some lines are changed, and one line gets a second carriage return. -/
theorem scans_of_moreReturns :
    Returned mixedEnds.toList moreReturns.toList
      ∧ Script.referencedNames moreReturns = ["B", "C"]
      ∧ Script.documentedKeys moreReturns = ["A"]
      ∧ Override.Ini.extract [⟨"a.ini", moreReturns⟩, ⟨"b.ini", mixedEnds⟩]
          = Override.Ini.extract [⟨"a.ini", mixedEnds⟩, ⟨"b.ini", mixedEnds⟩] := by
  have returned : Returned mixedEnds.toList moreReturns.toList := by
    refine .keep 'A' (.keep '=' (.keep '$' (.keep 'B' (.insert ?_))))
    exact .keep '$' (.keep 'C' (.keep '\r' (.insert .nil)))
  have documents : List.Forall₂ DocumentReturned [⟨"a.ini", mixedEnds⟩, ⟨"b.ini", mixedEnds⟩]
      [⟨"a.ini", moreReturns⟩, ⟨"b.ini", mixedEnds⟩] :=
    .cons ⟨rfl, returned⟩ (.cons ⟨rfl, Returned.refl _⟩ .nil)
  obtain ⟨-, referenced, -, documented⟩ := scans_of_returned.1 mixedEnds moreReturns returned
  have names : Script.referencedNames mixedEnds = ["B", "C"] :=
    List.mergeSort_of_pairwise (by decide +kernel)
  have keys : Script.documentedKeys mixedEnds = ["A"] :=
    List.mergeSort_of_pairwise (by decide +kernel)
  exact ⟨returned, referenced.trans names, documented.trans keys, (scans_of_returned.2 _ _ documents).1⟩

end EnvInventory
