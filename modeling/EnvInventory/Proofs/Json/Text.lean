import EnvInventory.Json.Read
import EnvInventory.Json.Render
import EnvInventory.Proofs.Encoding.Utf16

/-!
# Quoted texts

Inside quotes a character is written as itself, as a short escape, or as the escapes of its units.  The
reader takes each of these for one character, so it finds the end of a quoted text and gives the text
back: `readString_quoted`.  With the option for ASCII nothing else is written.
-/

namespace EnvInventory.Json

open Encoding

/-- The characters of a quoted text behind its opening quote. -/
def quoted (text : List Char) : List Char :=
  text.flatMap (escapeChar true) ++ ['"']

theorem quote_eq (text : String) : quote true text = '"' :: quoted text.toList := rfl

/-! ### Escapes of units -/

/-- A hexadecimal digit is read back as its number. -/
theorem value?_hexDigit {n : Nat} (digit : n < 16) : Digits.value? (hexDigit n) = some n := by
  revert n
  decide

/-- Four digits are read back as the unit that they spell. -/
theorem unitOf?_hexDigits {unit : Nat} (small : unit < 0x10000) :
    unitOf? (hexDigit (unit / 4096 % 16)) (hexDigit (unit / 256 % 16)) (hexDigit (unit / 16 % 16))
      (hexDigit (unit % 16)) = some unit := by
  have read : ∀ n, Digits.value? (hexDigit (n % 16)) = some (n % 16) := fun n =>
    value?_hexDigit (Nat.mod_lt n (by decide))
  have isDigit : ∀ n, Digits.isDigit 16 (hexDigit (n % 16)) = true := by
    intro n
    simpa [Digits.isDigit, read] using Nat.mod_lt n (by decide)
  simp only [unitOf?, Digits.number?, Digits.number, List.all_cons, List.all_nil, isDigit,
    Bool.and_self, if_true, List.foldl_cons, List.foldl_nil, read, Option.getD_some]
  congr 1
  omega

/-- The escape of a unit that is no surrogate stands for the character of the unit. -/
theorem readString_unitEscape {unit : Nat} (small : unit < 0x10000)
    (notHigh : isHighSurrogate unit = false) (notLow : isLowSurrogate unit = false)
    (rest : List Char) :
    readString (unitEscape unit ++ rest)
      = (readString rest).map fun (text, rest) => (Char.ofNat unit :: text, rest) := by
  simp [unitEscape, readString, unitOf?_hexDigits small, notHigh, notLow]

/-- The escapes of a pair of surrogates stand for one character. -/
theorem readString_surrogatePair {c : Char} {high low : Nat} (pair : SurrogatePair c high low)
    (rest : List Char) :
    readString (unitEscape high ++ unitEscape low ++ rest)
      = (readString rest).map fun (text, rest) => (c :: text, rest) := by
  have highSmall : high < 0x10000 := lt_of_mem_charUnits16 (c := c) (by simp [pair.units])
  have lowSmall : low < 0x10000 := lt_of_mem_charUnits16 (c := c) (by simp [pair.units])
  simp [unitEscape, readString, unitOf?_hexDigits highSmall, unitOf?_hexDigits lowSmall, pair.isHigh,
    pair.isLow, pair.whole]

/-- The escapes of the units of a character stand for the character. -/
theorem readString_units (c : Char) (rest : List Char) :
    readString ((charUnits16 c).flatMap unitEscape ++ rest)
      = (readString rest).map fun (text, rest) => (c :: text, rest) := by
  by_cases basic : c.toNat < 0x10000
  · obtain ⟨units, notHigh, notLow⟩ := charUnits16_of_basic basic
    rw [units, List.flatMap_singleton, readString_unitEscape basic notHigh notLow, Char.ofNat_toNat]
  · obtain ⟨high, low, pair⟩ := exists_surrogatePair (Nat.not_lt.1 basic)
    rw [pair.units, List.flatMap_cons, List.flatMap_singleton, readString_surrogatePair pair]

/-! ### Characters -/

/-- The forms in which a character is written: a short escape, the escapes of its units, or the
character itself, which is then neither the quote nor the backslash and no control character. -/
inductive Escaped (c : Char) : List Char → Prop
  | short {letter : Char} : shortEscape? letter = some c → letter ≠ 'u' → letter.toNat < 0x80 →
      c.toNat < 0x80 → Escaped c ['\\', letter]
  | units : Escaped c ((charUnits16 c).flatMap unitEscape)
  | plain : c ≠ '"' → c ≠ '\\' → ¬ c.toNat < 0x20 → c.toNat < 0x80 → Escaped c [c]

/-- Every character is escaped in one of the ways that the reader knows. -/
theorem escaped_escapeChar (c : Char) : Escaped c (escapeChar true c) := by
  simp only [escapeChar, Bool.true_and, decide_eq_true_eq]
  split_ifs with quoteMark backslash backspace formFeed lineFeed carriageReturn tab control above
  · subst quoteMark
    exact .short rfl (by decide) (by decide) (by decide)
  · subst backslash
    exact .short rfl (by decide) (by decide) (by decide)
  · subst backspace
    exact .short rfl (by decide) (by decide) (by decide)
  · subst formFeed
    exact .short rfl (by decide) (by decide) (by decide)
  · subst lineFeed
    exact .short rfl (by decide) (by decide) (by decide)
  · subst carriageReturn
    exact .short rfl (by decide) (by decide) (by decide)
  · subst tab
    exact .short rfl (by decide) (by decide) (by decide)
  · have single := (charUnits16_of_basic (c := c) (by omega)).1
    have written := Escaped.units (c := c)
    rwa [single, List.flatMap_singleton] at written
  · exact .units
  · exact .plain quoteMark backslash control (Nat.not_le.1 above)

/-- What is written for a character is read as that character. -/
theorem Escaped.read {c : Char} {written : List Char} (escaped : Escaped c written)
    (rest : List Char) :
    readString (written ++ rest)
      = (readString rest).map fun (text, rest) => (c :: text, rest) := by
  cases escaped with
  | short stands notUnit _ _ => simp [readString, stands, notUnit]
  | units => exact readString_units c rest
  | plain noQuote noEscape printed _ => simp [readString, noEscape, printed]

/-- Hexadecimal digits are ASCII. -/
theorem toNat_hexDigit {n : Nat} (digit : n < 16) : (hexDigit n).toNat < 0x80 := by
  revert n
  decide

/-- The escape of a unit is ASCII. -/
theorem toNat_of_mem_unitEscape {unit : Nat} {c : Char} (member : c ∈ unitEscape unit) :
    c.toNat < 0x80 := by
  have digit : ∀ n, (hexDigit (n % 16)).toNat < 0x80 := fun n =>
    toNat_hexDigit (Nat.mod_lt n (by decide))
  simp only [unitEscape, List.mem_cons, List.not_mem_nil, or_false] at member
  rcases member with rfl | rfl | rfl | rfl | rfl | rfl
  · decide
  · decide
  · exact digit _
  · exact digit _
  · exact digit _
  · exact digit _

/-- Only ASCII is written. -/
theorem Escaped.ascii {c : Char} {written : List Char} (escaped : Escaped c written) :
    ∀ d ∈ written, d.toNat < 0x80 := by
  intro d member
  cases escaped with
  | short _ _ ascii _ =>
      rcases List.mem_pair.1 member with rfl | rfl
      · decide
      · exact ascii
  | units =>
      obtain ⟨unit, -, within⟩ := List.mem_flatMap.1 member
      exact toNat_of_mem_unitEscape within
  | plain _ _ _ ascii => rwa [List.mem_singleton.1 member]

/-- A character above ASCII is written as the escapes of its units. -/
theorem Escaped.eq_units {c : Char} {written : List Char} (escaped : Escaped c written)
    (above : 0x80 ≤ c.toNat) : written = (charUnits16 c).flatMap unitEscape := by
  cases escaped with
  | short _ _ _ ascii => exact absurd above (Nat.not_le.2 ascii)
  | units => rfl
  | plain _ _ _ ascii => exact absurd above (Nat.not_le.2 ascii)

/-! ### Quoted texts -/

theorem quoted_cons (c : Char) (text : List Char) :
    quoted (c :: text) = escapeChar true c ++ quoted text := by
  rw [quoted, quoted, List.flatMap_cons, List.append_assoc]

/-- Behind its opening quote a quoted text is read up to its closing quote. The induction is on the
characters: each is written as itself, as a short escape, as one escape of four digits or as two of them,
and the reader takes just what was written for it. -/
theorem readString_quoted (text rest : List Char) :
    readString (quoted text ++ rest) = some (text, rest) := by
  induction text with
  | nil => rfl
  | cons c text ih =>
      have read := (escaped_escapeChar c).read (quoted text ++ rest)
      rw [quoted_cons, List.append_assoc, read, ih, Option.map_some]

/-- Whatever the text, what stands between the quotes is ASCII. -/
theorem ascii_quoted (text : List Char) : ∀ c ∈ quoted text, c.toNat < 0x80 := by
  intro c member
  rcases List.mem_append.1 member with inside | closing
  · obtain ⟨d, -, written⟩ := List.mem_flatMap.1 inside
    exact (escaped_escapeChar d).ascii c written
  · rw [List.mem_singleton.1 closing]
    decide

/-- In a quoted text a character above the basic plane is written as its pair of surrogates. -/
theorem quoted_surrogatePair {c : Char} {high low : Nat} (pair : SurrogatePair c high low)
    (before after : List Char) :
    quoted (before ++ c :: after)
      = before.flatMap (escapeChar true) ++ (unitEscape high ++ unitEscape low) ++ quoted after := by
  have written : escapeChar true c = unitEscape high ++ unitEscape low := by
    have above : 0x80 ≤ c.toNat := Nat.le_trans (by decide) pair.above
    rw [(escaped_escapeChar c).eq_units above, pair.units, List.flatMap_cons,
      List.flatMap_singleton]
  simp [quoted, written]

example : quote true "a𝄞" = "\"a\\ud834\\udd1e\"".toList := by decide

end EnvInventory.Json
