import EnvInventory.Text.Parts
import Mathlib.Data.List.Basic

/-!
# Divided texts

A text is divided at a mark in the middle into what stands on its two sides, each divided by itself; a
text without marks is one part, and texts without marks that are joined by marks are the parts again.  Split at
its first mark only, a text is what stands before and behind that.
-/

namespace EnvInventory.Text

/-- A start is dropped exactly if the text has it. -/
theorem dropStart?_eq_some_iff {start : String} {text rest : List Char} :
    dropStart? start text = some rest ↔ text = start.toList ++ rest := by
  rw [dropStart?, List.isPrefixOf?_eq_some_iff_append_eq, eq_comm]

/-- A text is split first at a mark before which there is no other. -/
theorem splitFirst?_append_mark {mark : Char} {before : List Char} (free : mark ∉ before)
    (after : List Char) : splitFirst? mark (before ++ mark :: after) = some (before, after) := by
  induction before with
  | nil => rw [List.nil_append, splitFirst?, if_pos rfl]
  | cons c before ih =>
      obtain ⟨first, rest⟩ := not_or.1 (mt List.mem_cons.2 free)
      rw [List.cons_append, splitFirst?, if_neg (Ne.symm first), ih rest, Option.map_some]

/-- A text is not divided exactly if the mark is not in it. -/
theorem splitFirst?_eq_none_iff {mark : Char} {text : List Char} :
    splitFirst? mark text = none ↔ mark ∉ text := by
  induction text with
  | nil => simp [splitFirst?]
  | cons c text ih =>
      rw [splitFirst?, List.mem_cons, not_or]
      split_ifs with isMark
      · simp [isMark]
      · rw [Option.map_eq_none_iff, ih]
        exact (and_iff_right (Ne.symm isMark)).symm

/-- A text is divided at the first mark, which neither part keeps. -/
theorem splitFirst?_eq_some_iff {mark : Char} {text before after : List Char} :
    splitFirst? mark text = some (before, after) ↔ mark ∉ before ∧ text = before ++ mark :: after := by
  constructor
  · intro found
    by_cases present : mark ∈ text
    · obtain ⟨front, back, rfl, free⟩ := List.eq_append_cons_of_mem present
      rw [splitFirst?_append_mark free] at found
      obtain ⟨rfl, rfl⟩ := Prod.mk.inj (Option.some.inj found)
      exact ⟨free, rfl⟩
    · rw [splitFirst?_eq_none_iff.2 present] at found
      cases found
  · rintro ⟨free, rfl⟩
    exact splitFirst?_append_mark free after

theorem splitAll_ne_nil (mark : Char) (text : List Char) : splitAll mark text ≠ [] := by
  cases text with
  | nil => exact List.cons_ne_nil _ _
  | cons c text =>
      rw [splitAll]
      split
      · exact List.cons_ne_nil _ _
      · cases splitAll mark text with
        | nil => exact List.cons_ne_nil _ _
        | cons part parts => exact List.cons_ne_nil _ _

theorem consHead_append {parts : List (List Char)} (several : parts ≠ []) (c : Char)
    (more : List (List Char)) : consHead c (parts ++ more) = consHead c parts ++ more := by
  cases parts with
  | nil => exact absurd rfl several
  | cons part parts => rfl

/-- Dividing a text at every mark divides what is before and what is behind any one of them. -/
theorem splitAll_append_mark (mark : Char) (before after : List Char) :
    splitAll mark (before ++ mark :: after) = splitAll mark before ++ splitAll mark after := by
  induction before with
  | nil => simp [splitAll]
  | cons c before ih =>
      rw [List.cons_append, splitAll, splitAll, ih]
      by_cases isMark : c = mark
      · rw [if_pos isMark, if_pos isMark, List.cons_append]
      · rw [if_neg isMark, if_neg isMark, consHead_append (splitAll_ne_nil mark before)]

/-- A text without the mark is one part. -/
theorem splitAll_of_not_mem {mark : Char} {text : List Char} (free : mark ∉ text) :
    splitAll mark text = [text] := by
  induction text with
  | nil => rfl
  | cons c text ih =>
      obtain ⟨first, rest⟩ := not_or.1 (mt List.mem_cons.2 free)
      rw [splitAll, if_neg (Ne.symm first), ih rest, consHead]

/-- No part has a mark in it. -/
theorem not_mem_of_mem_splitAll {mark : Char} {text part : List Char} (member : part ∈ splitAll mark text) :
    mark ∉ part := by
  induction text generalizing part with
  | nil =>
      rw [List.mem_singleton.1 member]
      exact List.not_mem_nil
  | cons c text ih =>
      rw [splitAll] at member
      by_cases isMark : c = mark
      · rw [if_pos isMark] at member
        rcases List.mem_cons.1 member with rfl | later
        · exact List.not_mem_nil
        · exact ih later
      · rw [if_neg isMark] at member
        obtain ⟨first, others, split⟩ := List.exists_cons_of_ne_nil (splitAll_ne_nil mark text)
        rw [split, consHead] at member
        rcases List.mem_cons.1 member with rfl | later
        · have free := ih (split ▸ List.mem_cons_self : first ∈ splitAll mark text)
          exact List.not_mem_cons_of_ne_of_not_mem (Ne.symm isMark) free
        · exact ih (split ▸ List.mem_cons_of_mem first later)

/-- What stands in front of a text without a mark belongs to the first part. -/
theorem exists_splitAll_append {mark : Char} {front : List Char} (free : mark ∉ front) (text : List Char) :
    ∃ first others, splitAll mark text = first :: others
      ∧ splitAll mark (front ++ text) = (front ++ first) :: others := by
  induction front with
  | nil =>
      obtain ⟨first, others, split⟩ := List.exists_cons_of_ne_nil (splitAll_ne_nil mark text)
      exact ⟨first, others, split, split⟩
  | cons c front ih =>
      obtain ⟨notMark, freeRest⟩ := not_or.1 (mt List.mem_cons.2 free)
      obtain ⟨first, others, split, longer⟩ := ih freeRest
      refine ⟨first, others, split, ?_⟩
      rw [List.cons_append, splitAll, if_neg (Ne.symm notMark), longer, consHead, List.cons_append]

/-- The first part is what a text starts with. -/
theorem prefix_of_splitAll {mark : Char} {text first : List Char} {others : List (List Char)}
    (split : splitAll mark text = first :: others) : first <+: text := by
  induction text generalizing first others with
  | nil =>
      obtain ⟨rfl, -⟩ := List.cons.inj split
      exact List.nil_prefix
  | cons c text ih =>
      rw [splitAll] at split
      by_cases isMark : c = mark
      · rw [if_pos isMark] at split
        obtain ⟨rfl, -⟩ := List.cons.inj split
        exact List.nil_prefix
      · obtain ⟨part, parts, inner⟩ := List.exists_cons_of_ne_nil (splitAll_ne_nil mark text)
        rw [if_neg isMark, inner, consHead] at split
        obtain ⟨rfl, -⟩ := List.cons.inj split
        exact List.cons_prefix_cons.2 ⟨rfl, ih inner⟩

/-- Texts without marks are the parts of the text in which a mark stands between them. -/
theorem splitAll_intercalate {mark : Char} {parts : List (List Char)} (several : parts ≠ [])
    (free : ∀ part ∈ parts, mark ∉ part) : splitAll mark ([mark].intercalate parts) = parts := by
  induction parts with
  | nil => exact absurd rfl several
  | cons part rest ih =>
      obtain ⟨freePart, freeRest⟩ := List.forall_mem_cons.1 free
      cases rest with
      | nil => rw [List.intercalate_singleton, splitAll_of_not_mem freePart]
      | cons next rest =>
          rw [List.intercalate_cons_cons, List.append_assoc, List.singleton_append, splitAll_append_mark,
            splitAll_of_not_mem freePart, ih (List.cons_ne_nil _ _) freeRest, List.singleton_append]

end EnvInventory.Text
