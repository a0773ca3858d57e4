import EnvInventory.Proofs.Text.Lines
import EnvInventory.Proofs.Text.Split

/-!
# Lines and parts

The lines of a text are its parts between line feeds, but for two things: a carriage return before a line feed is
not part of the line, and behind a last line feed there is no line, though there is an empty part.  So whoever takes
no notice of a carriage return at the end of a line may look at the parts instead, `exists_map_lines`; there is an
empty one more at most.
-/

namespace EnvInventory.Text

/-- A reading that is blind to a carriage return at the end reads the lines as it reads the parts between
newlines, but for an empty part at the end of the text. -/
theorem exists_map_lines {β : Type} {reads : List Char → β}
    (blind : ∀ line, reads (line ++ ['\r']) = reads line) (text : List Char) :
    ∃ ending, (∀ value ∈ ending, value = reads []) ∧
      (lines text).map reads ++ ending = (splitAll '\n' text).map reads := by
  by_cases marked : '\n' ∈ text
  · obtain ⟨first, rest, split, free⟩ := List.eq_append_cons_of_mem marked
    obtain ⟨kept, read, same⟩ := lines_append_newline free rest
    obtain ⟨ending, empties, later⟩ := exists_map_lines blind rest
    have sees : reads kept = reads first := by
      rcases same with rfl | rfl
      · rfl
      · exact (blind kept).symm
    refine ⟨ending, empties, ?_⟩
    rw [split, read, splitAll_append_mark, splitAll_of_not_mem free, List.map_cons, List.cons_append, later,
      sees, List.singleton_append, List.map_cons]
  · rw [lines_of_not_mem marked, splitAll_of_not_mem marked]
    by_cases empty : text = []
    · exact ⟨[reads []], by simp, by simp [empty]⟩
    · exact ⟨[], by simp, by simp [empty]⟩
termination_by text.length
decreasing_by
  rw [split, List.length_append, List.length_cons]
  omega

/-- Where nothing is found in an empty line, the lines and the parts hold the same. -/
theorem filterMap_lines {β : Type} {reads : List Char → Option β}
    (blind : ∀ line, reads (line ++ ['\r']) = reads line) (silent : reads [] = none) (text : List Char) :
    (lines text).filterMap reads = (splitAll '\n' text).filterMap reads := by
  obtain ⟨ending, empties, same⟩ := exists_map_lines blind text
  have nothing : ending.filterMap id = [] := by
    rw [List.filterMap_eq_nil_iff]
    intro value member
    exact (empties value member).trans silent
  have found := congrArg (List.filterMap id) same
  rwa [List.filterMap_append, nothing, List.append_nil, List.filterMap_map, List.filterMap_map,
    Function.id_comp] at found

/-- Trimmed, the lines are the parts, up to an empty one at the end. -/
theorem exists_trim_lines (text : List Char) :
    ∃ ending, (∀ line ∈ ending, line = []) ∧
      (lines text).map trim ++ ending = (splitAll '\n' text).map trim :=
  exists_map_lines (fun line => trim_append_blanks line (by decide : Blanks ['\r'])) text

end EnvInventory.Text
