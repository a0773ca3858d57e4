import EnvInventory.Text.Parts
import Mathlib.Data.List.Basic

/-!
# What a leftmost search finds

A leftmost search goes on behind each find, so there are positions of the text at which it never tries its
pattern.  Nothing is lost by that when the pattern sees nothing there, or only what has just been found:
`HidesNothing` says so of a pattern.  Then the search finds the values that the pattern sees at any position
of the text, `mem_findAll_iff`.
-/

namespace EnvInventory.Text

variable {α : Type}

/-- The positions of a text, each with the character before it and the characters from it on. -/
def positions : Option Char → List Char → List (Option Char × List Char)
  | _, [] => []
  | before, c :: rest => (before, c :: rest) :: positions (some c) rest

/-- The character before a position is the last one in front of it, or else the one before the text. -/
theorem getLast?_cons_or (c : Char) (front : List Char) (start : Option Char) :
    (c :: front).getLast?.or start = front.getLast?.or (some c) := by
  rw [List.getLast?_cons]
  cases front.getLast? <;> rfl

/-- A position is a division of the text with the character before it, and one lies before every
character. -/
theorem mem_positions_iff {start before : Option Char} {text rest : List Char} :
    (before, rest) ∈ positions start text
      ↔ rest ≠ [] ∧ ∃ front, text = front ++ rest ∧ before = front.getLast?.or start := by
  induction text generalizing start with
  | nil =>
      constructor
      · intro member
        cases member
      · rintro ⟨several, front, split, -⟩
        exact absurd (List.append_eq_nil_iff.1 split.symm).2 several
  | cons c text ih =>
      rw [positions, List.mem_cons, ih]
      constructor
      · rintro (same | ⟨several, front, rfl, rfl⟩)
        · obtain ⟨rfl, rfl⟩ := Prod.mk.inj same
          exact ⟨List.cons_ne_nil _ _, [], rfl, rfl⟩
        · exact ⟨several, c :: front, rfl, (getLast?_cons_or c front start).symm⟩
      · rintro ⟨several, front, split, rfl⟩
        cases front with
        | nil => exact Or.inl (by rw [split]; rfl)
        | cons d front =>
            obtain ⟨rfl, rfl⟩ := List.cons.inj split
            exact Or.inr ⟨several, front, rfl, getLast?_cons_or c front start⟩

/-- The pattern sees a value at a position. -/
def Sees (pattern : Pattern α) (value : α) (position : Option Char × List Char) : Prop :=
  ∃ width, pattern position.1 position.2 = some (value, width)

/-- At the positions that are stepped over by a find the pattern sees nothing but the value found. -/
def HidesNothing (pattern : Pattern α) : Prop :=
  ∀ before c rest value width, pattern before (c :: rest) = some (value, width) →
    ∀ position ∈ (positions (some c) rest).take (width - 1),
      ∀ other, Sees pattern other position → other = value

/-- What stands at the positions inside a run of characters. -/
theorem mem_take_positions {start : Option Char} {used rest : List Char}
    {position : Option Char × List Char}
    (member : position ∈ (positions start (used ++ rest)).take used.length) :
    ∃ front c behind, used = front ++ c :: behind
      ∧ position = (front.getLast?.or start, c :: behind ++ rest) := by
  induction used generalizing start with
  | nil => cases member
  | cons c used ih =>
      rw [List.cons_append, positions, List.length_cons, List.take_succ_cons, List.mem_cons] at member
      rcases member with rfl | inside
      · exact ⟨[], c, used, rfl, rfl⟩
      · obtain ⟨front, d, behind, rfl, rfl⟩ := ih inside
        exact ⟨c :: front, d, behind, rfl, by rw [getLast?_cons_or]⟩

/-- A pattern hides nothing if at each character inside what it takes, but the first one, it sees only the
value found. -/
theorem hidesNothing_of_inside {pattern : Pattern α}
    (inside : ∀ before text value width, pattern before text = some (value, width) →
      ∃ c used rest, text = c :: used ++ rest ∧ width = used.length + 1
        ∧ ∀ front d behind, used = front ++ d :: behind →
          ∀ other, Sees pattern other ((c :: front).getLast?, d :: behind ++ rest) → other = value) :
    HidesNothing pattern := by
  intro before c text value width found position member other sees
  obtain ⟨c, used, rest, split, rfl, only⟩ := inside before (c :: text) value width found
  obtain ⟨rfl, rfl⟩ := List.cons.inj split
  obtain ⟨front, d, behind, parts, rfl⟩ := mem_take_positions member
  refine only front d behind parts other ?_
  rwa [← Option.or_none (o := (c :: front).getLast?), getLast?_cons_or]

/-- A pattern hides nothing if each find starts with a character that does not occur again in it. -/
theorem hidesNothing_of_start {pattern : Pattern α} (start : Char)
    (starts : ∀ before text value, Sees pattern value (before, text) → text.head? = some start)
    (once : ∀ before text value width, pattern before text = some (value, width) →
      ∃ used rest, text = start :: used ++ rest ∧ width = used.length + 1 ∧ start ∉ used) :
    HidesNothing pattern := by
  refine hidesNothing_of_inside fun before text value width found => ?_
  obtain ⟨used, rest, split, taken, free⟩ := once before text value width found
  refine ⟨start, used, rest, split, taken, fun front d behind parts other sees => ?_⟩
  obtain rfl : d = start := Option.some.inj (starts _ _ other sees)
  exact absurd (parts ▸ List.mem_append_right _ List.mem_cons_self) free

/-- Stepping over characters is searching behind them. -/
theorem exists_findFrom_drop (pattern : Pattern α) (before : Option Char) (skipped : Nat)
    (text : List Char) :
    ∃ behind, findFrom pattern before skipped text = findFrom pattern behind 0 (text.drop skipped)
      ∧ (positions before text).drop skipped = positions behind (text.drop skipped) := by
  induction skipped generalizing before text with
  | zero => exact ⟨before, rfl, rfl⟩
  | succ skipped ih =>
      cases text with
      | nil => exact ⟨before, rfl, rfl⟩
      | cons c text => exact ih (some c) text

/-- From any position on, a leftmost search finds what the pattern sees somewhere.  The induction is on the
length of the text, since a find may take any number of characters. -/
theorem mem_findFrom_iff {pattern : Pattern α} (hides : HidesNothing pattern) (before : Option Char)
    (text : List Char) (value : α) :
    value ∈ findFrom pattern before 0 text
      ↔ ∃ position ∈ positions before text, Sees pattern value position := by
  induction bound : text.length using Nat.strongRecOn generalizing before text with
  | ind length ih =>
    subst bound
    cases text with
    | nil =>
        constructor
        · intro member
          cases member
        · rintro ⟨position, member, -⟩
          cases member
    | cons c rest =>
        cases found : pattern before (c :: rest) with
        | none =>
            have nothing : ¬ Sees pattern value (before, c :: rest) := by
              rintro ⟨width, sees⟩
              rw [found] at sees
              cases sees
            simp only [findFrom, found, positions, List.exists_mem_cons_iff, nothing, false_or]
            exact ih _ (Nat.lt_succ_self _) (some c) rest rfl
        | some result =>
            obtain ⟨first, width⟩ := result
            obtain ⟨behind, searched, dropped⟩ :=
              exists_findFrom_drop pattern (some c) (width - 1) rest
            have shorter : (rest.drop (width - 1)).length < (c :: rest).length := by
              rw [List.length_drop, List.length_cons]
              omega
            have further := ih _ shorter behind (rest.drop (width - 1)) rfl
            rw [positions, List.exists_mem_cons_iff]
            simp only [findFrom, found, searched, List.mem_cons, further, ← dropped]
            constructor
            · rintro (rfl | ⟨position, member, sees⟩)
              · exact Or.inl ⟨width, found⟩
              · exact Or.inr ⟨position, List.mem_of_mem_drop member, sees⟩
            · rintro (⟨width', sees⟩ | ⟨position, member, sees⟩)
              · rw [found] at sees
                exact Or.inl (Prod.mk.inj (Option.some.inj sees)).1.symm
              · -- A position of the rest is stepped over by the find or lies behind it.
                rw [← List.take_append_drop (width - 1) (positions (some c) rest),
                  List.mem_append] at member
                rcases member with skipped | further
                · exact Or.inl (hides before c rest first width found position skipped value sees)
                · exact Or.inr ⟨position, further, sees⟩

/-- A search with a pattern that hides nothing finds what the pattern sees at some position of the text. A
search steps over what it has found, so without that property a find could lie inside of another one and
be missed. -/
theorem mem_findAll_iff {pattern : Pattern α} (hides : HidesNothing pattern) {text : List Char}
    {value : α} :
    value ∈ findAll pattern text
      ↔ ∃ front rest, text = front ++ rest ∧ rest ≠ [] ∧ Sees pattern value (front.getLast?, rest) := by
  rw [findAll, mem_findFrom_iff hides]
  constructor
  · rintro ⟨⟨before, rest⟩, member, sees⟩
    obtain ⟨several, front, rfl, rfl⟩ := mem_positions_iff.1 member
    rw [Option.or_none] at sees
    exact ⟨front, rest, rfl, several, sees⟩
  · rintro ⟨front, rest, rfl, several, sees⟩
    exact ⟨_, mem_positions_iff.2 ⟨several, front, rfl, (Option.or_none).symm⟩, sees⟩

end EnvInventory.Text
