import EnvInventory.Proofs.Json.Shape
import EnvInventory.Proofs.Json.Text

/-!
# Reading back written values

A value in the file form is read back as it was written: every item and field with its layout is taken
off the front of the text, whatever follows, as long as it does not continue a number.  The statement
about values, about the items of an array and about the fields of an object is one mutual induction,
`readValue_renderValue`; the fuel it asks for is the number of values, items and fields.
-/

namespace EnvInventory.Json

/-! ### Layout -/

/-- A line feed with its indentation is skipped. -/
theorem skipSpace_newLine (depth : Nat) (rest : List Char) :
    skipSpace (newLine depth ++ rest) = skipSpace rest := by
  have spaces : ∀ c ∈ newLine depth, isSpace c = true := by
    intro c member
    rcases List.mem_cons.1 member with rfl | blank
    · decide
    · rw [List.eq_of_mem_replicate blank]
      decide
  rw [skipSpace, List.dropWhile_append_of_pos spaces, skipSpace]

/-- Nothing is skipped in front of a character that is no blank. -/
theorem skipSpace_cons {c : Char} (solid : isSpace c = false) (rest : List Char) :
    skipSpace (c :: rest) = c :: rest := by
  simp [skipSpace, solid]

/-- A value is read behind a line feed with its indentation. -/
theorem readValue_newLine (fuel depth indent : Nat) (rest : List Char) :
    readValue fuel depth (newLine indent ++ rest) = readValue fuel depth rest := by
  cases fuel with
  | zero => rw [readValue, readValue]
  | succ fuel => rw [readValue, readValue, skipSpace_newLine]

/-- Items are read behind a line feed with its indentation. -/
theorem readItems_newLine (fuel depth indent : Nat) (rest : List Char) :
    readItems fuel depth (newLine indent ++ rest) = readItems fuel depth rest := by
  cases fuel with
  | zero => rw [readItems, readItems]
  | succ fuel => rw [readItems, readItems, readValue_newLine]

/-- Fields are read behind a line feed with its indentation. -/
theorem readFields_newLine (fuel depth indent : Nat) (rest : List Char) :
    readFields fuel depth (newLine indent ++ rest) = readFields fuel depth rest := by
  cases fuel with
  | zero => rw [readFields, readFields]
  | succ fuel => rw [readFields, readFields, skipSpace_newLine]

theorem readValue_blank (fuel depth : Nat) (rest : List Char) :
    readValue fuel depth (' ' :: rest) = readValue fuel depth rest := by
  have skipped : skipSpace (' ' :: rest) = skipSpace rest := rfl
  cases fuel with
  | zero => rw [readValue, readValue]
  | succ fuel => rw [readValue, readValue, skipped]

/-- A number is ended by a line feed. -/
theorem endsNumber_newLine (depth : Nat) (rest : List Char) :
    EndsNumber (newLine depth ++ rest) := by
  intro c first
  rw [← Option.some.inj first]
  decide

theorem endsNumber_comma (rest : List Char) : EndsNumber (',' :: rest) := by
  intro c first
  rw [← Option.some.inj first]
  decide

/-! ### What the reader makes of the start of a value -/

/-- Items with what stands between them. -/
def listedItems (depth : Nat) : List Value → List Char
  | [] => []
  | item :: rest => renderValue depth item ++ renderItems depth rest

/-- Fields with what stands between them. -/
def listedFields (depth : Nat) : List (String × Value) → List Char
  | [] => []
  | (key, value) :: rest =>
      quote true key ++ ':' :: ' ' :: renderValue depth value ++ renderFields depth rest

theorem isSpace_of_isDigit {c : Char} (digit : c.isDigit = true) : isSpace c = false := by
  rw [Bool.eq_false_iff]
  intro space
  simp only [isSpace, Bool.or_eq_true, beq_iff_eq] at space
  rcases space with ((rfl | rfl) | rfl) | rfl <;> exact absurd digit (by decide)

/-- A text that begins with a digit is read as a number. -/
theorem readValue_digit {c : Char} (digit : c.isDigit = true) (fuel depth : Nat) (rest : List Char) :
    readValue (fuel + 1) depth (c :: rest)
      = (readNumber false (c :: rest)).map fun (n, rest) => (.number n, rest) := by
  rw [readValue, skipSpace_cons (isSpace_of_isDigit digit)]
  split
  case h_8 => rfl
  all_goals
    rename_i same
    obtain ⟨rfl, -⟩ := List.cons.inj same
    exact absurd digit (by decide)

/-- Every number begins with a digit. -/
theorem exists_digit (n : Nat) :
    ∃ c rest, Nat.toDigits 10 n = c :: rest ∧ c.isDigit = true := by
  obtain ⟨c, rest, text⟩ := List.exists_cons_of_ne_nil (Nat.toDigits_ne_nil (n := n) (b := 10))
  exact ⟨c, rest, text, Digits.isDigit_of_mem_toDigits (n := n) c (by rw [text]; exact List.mem_cons_self)⟩

/-- An integer within 64 bits is read back where its digits end. -/
theorem readValue_integer {value : Int} (fits : FitsWord value) (fuel depth : Nat) {rest : List Char}
    (ends : EndsNumber rest) :
    readValue (fuel + 1) depth (Number.text (.integer value) ++ rest)
      = some (.number (.integer value), rest) := by
  have number := integerNumber?_of_fitsWord fits
  rw [text_integer]
  by_cases negative : value < 0
  · rw [if_pos negative, List.cons_append, readValue]
    simp only [skipSpace_cons (by decide : isSpace '-' = false), readNumber_toDigits true _ ends]
    rw [decide_eq_true negative] at number
    rw [number]
    rfl
  · rw [if_neg negative]
    obtain ⟨c, digits, text, digit⟩ := exists_digit value.natAbs
    rw [text, List.cons_append, readValue_digit digit, ← List.cons_append, ← text,
      readNumber_toDigits false _ ends]
    rw [decide_eq_false negative] at number
    rw [number]
    rfl

/-- Behind its bracket an array is read as its items, unless it is closed at once. -/
theorem readValue_array {text : List Char} (filled : ∀ rest, skipSpace text ≠ ']' :: rest)
    (fuel depth : Nat) :
    readValue (fuel + 1) (depth + 1) ('[' :: text)
      = (readItems fuel depth text).map fun (items, rest) => (.array items, rest) := by
  rw [readValue, skipSpace_cons (by decide)]
  -- `filled` rules out the arm of an empty container
  simp only

/-- Behind its brace an object is read as its fields, unless it is closed at once. -/
theorem readValue_object {text : List Char} (filled : ∀ rest, skipSpace text ≠ '}' :: rest)
    (fuel depth : Nat) :
    readValue (fuel + 1) (depth + 1) ('{' :: text)
      = (readFields fuel depth text).map fun (fields, rest) => (.object fields, rest) := by
  rw [readValue, skipSpace_cons (by decide)]
  -- `filled` rules out the arm of an empty container
  simp only

/-- The last item is followed by the closing bracket. -/
theorem readItems_last {fuel depth outer : Nat} {text rest : List Char} {item : Value}
    (read : readValue fuel depth text = some (item, newLine outer ++ ']' :: rest)) :
    readItems (fuel + 1) depth text = some ([item], rest) := by
  rw [readItems, read]
  simp only [skipSpace_newLine, skipSpace_cons (by decide : isSpace ']' = false)]

/-- Any other item is followed by a comma and more items. -/
theorem readItems_more {fuel depth : Nat} {text rest : List Char} {item : Value}
    (read : readValue fuel depth text = some (item, ',' :: rest)) :
    readItems (fuel + 1) depth text
      = (readItems fuel depth rest).map fun (items, rest) => (item :: items, rest) := by
  rw [readItems, read]
  simp only [skipSpace_cons (by decide : isSpace ',' = false)]

/-- The last field: a key, a colon and a value before the closing brace. -/
theorem readFields_last {fuel depth outer : Nat} {key : String} {text rest : List Char} {value : Value}
    (read : readValue fuel depth text = some (value, newLine outer ++ '}' :: rest)) :
    readFields (fuel + 1) depth (quote true key ++ ':' :: ' ' :: text)
      = some ([(key, value)], rest) := by
  rw [quote_eq, List.cons_append, readFields, skipSpace_cons (by decide)]
  simp only [readString_quoted, skipSpace_cons (by decide : isSpace ':' = false), readValue_blank, read,
    skipSpace_newLine, skipSpace_cons (by decide : isSpace '}' = false), String.ofList_toList]

/-- A field before another: a key, a colon and a value before the comma. -/
theorem readFields_more {fuel depth : Nat} {key : String} {text rest : List Char} {value : Value}
    (read : readValue fuel depth text = some (value, ',' :: rest)) :
    readFields (fuel + 1) depth (quote true key ++ ':' :: ' ' :: text)
      = (readFields fuel depth rest).map fun (fields, rest) => ((key, value) :: fields, rest) := by
  rw [quote_eq, List.cons_append, readFields, skipSpace_cons (by decide)]
  simp only [readString_quoted, skipSpace_cons (by decide : isSpace ':' = false), readValue_blank, read,
    skipSpace_cons (by decide : isSpace ',' = false), String.ofList_toList]

/-- A written value begins with a character that is neither a space nor a closing bracket. -/
theorem exists_head_renderValue {value : Value} (exact : value.Exact) (depth : Nat) :
    ∃ c rest, renderValue depth value = c :: rest ∧ isSpace c = false ∧ c ≠ ']' := by
  cases value with
  | null => exact ⟨'n', _, rfl, by decide, by decide⟩
  | bool value =>
      cases value with
      | false => exact ⟨'f', _, rfl, by decide, by decide⟩
      | true => exact ⟨'t', _, rfl, by decide, by decide⟩
  | number number =>
      cases number with
      | float value => exact exact.elim
      | integer value =>
          rw [renderValue, text_integer]
          by_cases negative : value < 0
          · rw [if_pos negative]
            exact ⟨'-', _, rfl, by decide, by decide⟩
          · rw [if_neg negative]
            obtain ⟨c, digits, text, digit⟩ := exists_digit value.natAbs
            refine ⟨c, digits, text, isSpace_of_isDigit digit, ?_⟩
            rintro rfl
            exact absurd digit (by decide)
  | string text => exact ⟨'"', _, rfl, by decide, by decide⟩
  | array items =>
      cases items with
      | nil => exact ⟨'[', _, rfl, by decide, by decide⟩
      | cons item items => exact ⟨'[', _, rfl, by decide, by decide⟩
  | object fields =>
      cases fields with
      | nil => exact ⟨'{', _, rfl, by decide, by decide⟩
      | cons field fields => exact ⟨'{', _, rfl, by decide, by decide⟩

/-! ### Reading back -/

/-- More items are written like the first ones, behind a comma. -/
theorem renderItems_cons (depth : Nat) (item : Value) (items : List Value) :
    renderItems depth (item :: items)
      = ',' :: (newLine depth ++ listedItems depth (item :: items)) := by
  rw [renderItems, listedItems, List.cons_append, List.cons_append, List.append_assoc]

/-- More fields are written like the first ones, behind a comma. -/
theorem renderFields_cons (depth : Nat) (field : String × Value) (fields : List (String × Value)) :
    renderFields depth (field :: fields)
      = ',' :: (newLine depth ++ listedFields depth (field :: fields)) := by
  obtain ⟨key, value⟩ := field
  simp [renderFields, listedFields]

/-- An array that is not empty is its items between brackets, one level deeper. -/
theorem renderValue_array (depth : Nat) (item : Value) (items : List Value) (rest : List Char) :
    renderValue depth (.array (item :: items)) ++ rest
      = '[' :: (newLine (depth + 1) ++ (listedItems (depth + 1) (item :: items)
        ++ (newLine depth ++ ']' :: rest))) := by
  simp [renderValue, listedItems]

/-- An object that is not empty is its fields between braces, one level deeper. -/
theorem renderValue_object (depth : Nat) (field : String × Value) (fields : List (String × Value))
    (rest : List Char) :
    renderValue depth (.object (field :: fields)) ++ rest
      = '{' :: (newLine (depth + 1) ++ (listedFields (depth + 1) (field :: fields)
        ++ (newLine depth ++ '}' :: rest))) := by
  obtain ⟨key, value⟩ := field
  simp [renderValue, listedFields]

theorem size_pos (value : Value) : 0 < value.size := by
  cases value <;> simp [Value.size]

mutual

/-- A written value is read back, whatever follows that does not continue a number. The recursion is that
of the writer, with the items and the fields of a container beside it; the fuel goes down by one with each
call of the reader, and the depth with each container. -/
theorem readValue_renderValue : ∀ (value : Value) {fuel depth : Nat} (indent : Nat)
    {rest : List Char}, value.Exact → value.height ≤ depth → value.size ≤ fuel → EndsNumber rest →
      readValue fuel depth (renderValue indent value ++ rest) = some (value, rest)
  | value, 0, _, _, _, _, _, enough, _ => absurd (size_pos value) (by omega)
  | .null, _ + 1, _, _, _, _, _, _, _ => rfl
  | .bool true, _ + 1, _, _, _, _, _, _, _ => rfl
  | .bool false, _ + 1, _, _, _, _, _, _, _ => rfl
  | .number (.integer _), fuel + 1, depth, _, _, exact, _, _, ends =>
      readValue_integer exact fuel depth ends
  | .string text, fuel + 1, depth, _, rest, _, _, _, _ => by
      rw [renderValue, quote_eq, List.cons_append, readValue, skipSpace_cons (by decide)]
      simp only [readString_quoted, Option.map_some, String.ofList_toList]
  | .array [], fuel + 1, depth + 1, _, _, _, _, _, _ => rfl
  | .array (item :: items), fuel + 1, depth + 1, indent, rest, exact, shallow, enough, _ => by
      have filled : ∀ more, skipSpace (newLine (indent + 1) ++ (listedItems (indent + 1) (item :: items)
          ++ (newLine indent ++ ']' :: rest))) ≠ ']' :: more := by
        intro more same
        obtain ⟨c, written, text, solid, open'⟩ := exists_head_renderValue exact.1 (indent + 1)
        rw [skipSpace_newLine, listedItems, text, List.cons_append, List.cons_append,
          skipSpace_cons solid] at same
        exact open' (List.cons.inj same).1
      have read := @readItems_listedItems (item :: items) fuel depth (indent + 1) indent rest
        (List.cons_ne_nil item items) exact (Nat.le_of_succ_le_succ shallow)
        (Nat.le_of_succ_le_succ enough)
      rw [renderValue_array, readValue_array filled, readItems_newLine, read, Option.map_some]
  | .object [], fuel + 1, depth + 1, _, _, _, _, _, _ => rfl
  | .object (field :: fields), fuel + 1, depth + 1, indent, rest, exact, shallow, enough, _ => by
      have filled : ∀ more, skipSpace (newLine (indent + 1)
          ++ (listedFields (indent + 1) (field :: fields) ++ (newLine indent ++ '}' :: rest)))
            ≠ '}' :: more := by
        intro more same
        rw [skipSpace_newLine, listedFields, quote_eq, List.cons_append, List.cons_append,
          List.cons_append, skipSpace_cons (by decide)] at same
        exact absurd (List.cons.inj same).1 (by decide)
      have read := @readFields_listedFields (field :: fields) fuel depth (indent + 1) indent rest
        (List.cons_ne_nil field fields) exact (Nat.le_of_succ_le_succ shallow)
        (Nat.le_of_succ_le_succ enough)
      rw [renderValue_object, readValue_object filled, readFields_newLine, read, Option.map_some]

/-- Written items are read back up to and with the closing bracket. -/
theorem readItems_listedItems : ∀ (items : List Value) {fuel depth : Nat} (indent outer : Nat)
    {rest : List Char}, items ≠ [] → exactItems items → heightItems items ≤ depth →
      sizeItems items ≤ fuel →
      readItems fuel depth (listedItems indent items ++ (newLine outer ++ ']' :: rest))
        = some (items, rest)
  | [], _, _, _, _, _, nonempty, _, _, _ => absurd rfl nonempty
  | [item], fuel + 1, depth, indent, outer, rest, _, exact, shallow, enough => by
      have read := @readValue_renderValue item fuel depth indent _ exact.1
        (Nat.le_trans (Nat.le_max_left _ _) shallow) (by simp only [sizeItems] at enough; omega)
        (endsNumber_newLine outer (']' :: rest))
      rw [listedItems, renderItems, List.append_nil, readItems_last read]
  | item :: next :: items, fuel + 1, depth, indent, outer, rest, _, exact, shallow, enough => by
      rw [sizeItems] at enough
      have read := @readValue_renderValue item fuel depth indent _ exact.1
        (Nat.le_trans (Nat.le_max_left _ _) shallow) (by omega)
        (endsNumber_comma (newLine indent ++ (listedItems indent (next :: items)
          ++ (newLine outer ++ ']' :: rest))))
      have readRest := @readItems_listedItems (next :: items) fuel depth indent outer rest
        (List.cons_ne_nil next items) exact.2 (Nat.le_trans (Nat.le_max_right _ _) shallow) (by omega)
      rw [listedItems, renderItems_cons, List.append_assoc, List.cons_append, List.append_assoc,
        readItems_more read, readItems_newLine, readRest, Option.map_some]

/-- Written fields are read back up to and with the closing brace. -/
theorem readFields_listedFields : ∀ (fields : List (String × Value)) {fuel depth : Nat}
    (indent outer : Nat) {rest : List Char}, fields ≠ [] → exactFields fields →
      heightFields fields ≤ depth → sizeFields fields ≤ fuel →
      readFields fuel depth (listedFields indent fields ++ (newLine outer ++ '}' :: rest))
        = some (fields, rest)
  | [], _, _, _, _, _, nonempty, _, _, _ => absurd rfl nonempty
  | [(key, value)], fuel + 1, depth, indent, outer, rest, _, exact, shallow, enough => by
      have read := @readValue_renderValue value fuel depth indent _ exact.1
        (Nat.le_trans (Nat.le_max_left _ _) shallow) (by simp only [sizeFields] at enough; omega)
        (endsNumber_newLine outer ('}' :: rest))
      rw [listedFields, renderFields, List.append_nil, List.append_assoc, List.cons_append,
        List.cons_append, readFields_last read]
  | (key, value) :: next :: fields, fuel + 1, depth, indent, outer, rest, _, exact, shallow,
      enough => by
      rw [sizeFields] at enough
      have read := @readValue_renderValue value fuel depth indent _ exact.1
        (Nat.le_trans (Nat.le_max_left _ _) shallow) (by omega)
        (endsNumber_comma (newLine indent ++ (listedFields indent (next :: fields)
          ++ (newLine outer ++ '}' :: rest))))
      have readRest := @readFields_listedFields (next :: fields) fuel depth indent outer rest
        (List.cons_ne_nil next fields) exact.2 (Nat.le_trans (Nat.le_max_right _ _) shallow)
        (by omega)
      rw [listedFields, renderFields_cons, List.append_assoc, List.append_assoc, List.cons_append,
        List.cons_append, List.cons_append, List.append_assoc, readFields_more read,
        readFields_newLine, readRest, Option.map_some]

end

end EnvInventory.Json
