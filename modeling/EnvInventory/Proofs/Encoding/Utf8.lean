import EnvInventory.Encoding.Utf8
import Mathlib.Data.List.Basic

/-!
# Encoded text is well-formed

The bytes of a character are one unit, whatever follows them: the lead byte tells how many bytes there
are, and the others fall into the ranges it allows.  So `decodeUtf8?_encodeUtf8` gives every text back.
-/

namespace EnvInventory.Encoding

/-! ### Bytes of one character -/

theorem toNat_ofNat_of_lt {n : Nat} (small : n < 256) : (UInt8.ofNat n).toNat = n := by
  rw [UInt8.toNat_ofNat']
  omega

/-- A continuation byte with its payload. -/
theorem continuation {n : Nat} (small : n < 64) :
    (UInt8.ofNat (n + 0x80)).toNat = n + 0x80 ∧ inRange 0x80 0xBF (UInt8.ofNat (n + 0x80)) = true ∧
      payload (UInt8.ofNat (n + 0x80)) = n := by
  have byte : (UInt8.ofNat (n + 0x80)).toNat = n + 0x80 := toNat_ofNat_of_lt (by omega)
  refine ⟨byte, ?_, ?_⟩
  · simp only [inRange, byte, Bool.and_eq_true, decide_eq_true_eq]
    omega
  · unfold payload
    omega

/-- One byte below 80 is its character. -/
theorem unitAt_ascii {n : Nat} (ascii : n < 0x80) (rest : Bytes) :
    unitAt (UInt8.ofNat n) rest = (some (Char.ofNat n), 1) := by
  have lead : (UInt8.ofNat n).toNat = n := toNat_ofNat_of_lt (by omega)
  simp [unitAt, lead, ascii]

/-- Two bytes are read as the character whose number they hold, from 80 on below 800. -/
theorem unitAt_two {n : Nat} (low : 0x80 ≤ n) (high : n < 0x800) (rest : Bytes) :
    unitAt (UInt8.ofNat (n / 64 % 0x20 + 0xC0)) (UInt8.ofNat (n % 0x40 + 0x80) :: rest)
      = (some (Char.ofNat n), 2) := by
  have lead : (UInt8.ofNat (n / 64 % 0x20 + 0xC0)).toNat = n / 64 + 0xC0 := by
    rw [toNat_ofNat_of_lt (by omega)]
    omega
  obtain ⟨-, inside, value⟩ := continuation (n := n % 0x40) (by omega)
  have notAscii : ¬ n / 64 + 0xC0 < 0x80 := by omega
  have notShort : ¬ n / 64 + 0xC0 < 0xC2 := by omega
  have isLead : n / 64 + 0xC0 < 0xE0 := by omega
  have whole : (n / 64 + 0xC0 - 0xC0) * 64 + n % 0x40 = n := by omega
  simp only [unitAt, lead, notAscii, notShort, isLead, inside, value, whole, if_true, if_false]

/-- Three bytes are read as the character whose number they hold, from 800 on below 10000, surrogates
apart. -/
theorem unitAt_three {n : Nat} (low : 0x800 ≤ n) (high : n < 0x10000)
    (scalar : n < 0xD800 ∨ 0xE000 ≤ n) (rest : Bytes) :
    unitAt (UInt8.ofNat (n / 4096 % 0x10 + 0xE0))
        (UInt8.ofNat (n / 64 % 0x40 + 0x80) :: UInt8.ofNat (n % 0x40 + 0x80) :: rest)
      = (some (Char.ofNat n), 3) := by
  have lead : (UInt8.ofNat (n / 4096 % 0x10 + 0xE0)).toNat = n / 4096 + 0xE0 := by
    rw [toNat_ofNat_of_lt (by omega)]
    omega
  obtain ⟨byte, -, value⟩ := continuation (n := n / 64 % 0x40) (by omega)
  obtain ⟨-, inside', value'⟩ := continuation (n := n % 0x40) (by omega)
  have notAscii : ¬ n / 4096 + 0xE0 < 0x80 := by omega
  have notShort : ¬ n / 4096 + 0xE0 < 0xC2 := by omega
  have notTwo : ¬ n / 4096 + 0xE0 < 0xE0 := by omega
  have isLead : n / 4096 + 0xE0 < 0xF0 := by omega
  -- no overlong form, and no surrogate
  have inside : inRange (secondOfThree (n / 4096 + 0xE0)).1 (secondOfThree (n / 4096 + 0xE0)).2
      (UInt8.ofNat (n / 64 % 0x40 + 0x80)) = true := by
    simp only [inRange, byte, Bool.and_eq_true, decide_eq_true_eq, secondOfThree]
    split
    · simp only
      omega
    · split
      · simp only
        omega
      · simp only
        omega
  have whole : (n / 4096 + 0xE0 - 0xE0) * 4096 + n / 64 % 0x40 * 64 + n % 0x40 = n := by omega
  simp only [unitAt, lead, notAscii, notShort, notTwo, isLead, inside, inside', value, value', whole,
    if_true, if_false]

/-- Four bytes are read as the character whose number they hold, from 10000 on. -/
theorem unitAt_four {n : Nat} (low : 0x10000 ≤ n) (high : n < 0x110000) (rest : Bytes) :
    unitAt (UInt8.ofNat (n / 262144 % 0x08 + 0xF0))
        (UInt8.ofNat (n / 4096 % 0x40 + 0x80) :: UInt8.ofNat (n / 64 % 0x40 + 0x80)
          :: UInt8.ofNat (n % 0x40 + 0x80) :: rest)
      = (some (Char.ofNat n), 4) := by
  have lead : (UInt8.ofNat (n / 262144 % 0x08 + 0xF0)).toNat = n / 262144 + 0xF0 := by
    rw [toNat_ofNat_of_lt (by omega)]
    omega
  obtain ⟨byte, -, value⟩ := continuation (n := n / 4096 % 0x40) (by omega)
  obtain ⟨-, inside', value'⟩ := continuation (n := n / 64 % 0x40) (by omega)
  obtain ⟨-, inside'', value''⟩ := continuation (n := n % 0x40) (by omega)
  have notAscii : ¬ n / 262144 + 0xF0 < 0x80 := by omega
  have notShort : ¬ n / 262144 + 0xF0 < 0xC2 := by omega
  have notTwo : ¬ n / 262144 + 0xF0 < 0xE0 := by omega
  have notThree : ¬ n / 262144 + 0xF0 < 0xF0 := by omega
  have isLead : n / 262144 + 0xF0 < 0xF5 := by omega
  -- no overlong form, and nothing above the last code point
  have inside : inRange (secondOfFour (n / 262144 + 0xF0)).1 (secondOfFour (n / 262144 + 0xF0)).2
      (UInt8.ofNat (n / 4096 % 0x40 + 0x80)) = true := by
    simp only [inRange, byte, Bool.and_eq_true, decide_eq_true_eq, secondOfFour]
    split
    · simp only
      omega
    · split
      · simp only
        omega
      · simp only
        omega
  have whole : (n / 262144 + 0xF0 - 0xF0) * 262144 + n / 4096 % 0x40 * 4096 + n / 64 % 0x40 * 64
      + n % 0x40 = n := by omega
  simp only [unitAt, lead, notAscii, notShort, notTwo, notThree, isLead, inside, inside', inside'',
    value, value', value'', whole, if_true, if_false]

/-- Code points of characters are no surrogates and end at U+10FFFF. -/
theorem toNat_scalar (c : Char) : c.toNat < 0xD800 ∨ 0xE000 ≤ c.toNat ∧ c.toNat < 0x110000 := by
  rcases c.valid with below | ⟨above, below⟩
  · exact Or.inl below
  · exact Or.inr ⟨Nat.succ_le_of_lt above, below⟩

/-- The bytes of a character are read as that character, whatever follows them. -/
theorem unitAt_utf8EncodeChar (c : Char) (rest : Bytes) :
    ∃ lead more, String.utf8EncodeChar c = lead :: more ∧
      unitAt lead (more ++ rest) = (some c, more.length + 1) := by
  have scalar := toNat_scalar c
  have same : Char.ofNat c.toNat = c := Char.ofNat_toNat c
  have value : c.val.toNat = c.toNat := rfl
  simp only [String.utf8EncodeChar, value]
  split
  case isTrue one =>
      have read := unitAt_ascii (n := c.toNat) (by omega) rest
      exact ⟨_, _, rfl, by simpa [same] using read⟩
  case isFalse notOne =>
      split
      case isTrue two =>
          have read := unitAt_two (n := c.toNat) (by omega) (by omega) rest
          exact ⟨_, _, rfl, by simpa [same] using read⟩
      case isFalse notTwo =>
          split
          case isTrue three =>
              have read := unitAt_three (n := c.toNat) (by omega) (by omega) (by omega) rest
              exact ⟨_, _, rfl, by simpa [same] using read⟩
          case isFalse notThree =>
              have read := unitAt_four (n := c.toNat) (by omega) (by omega) rest
              exact ⟨_, _, rfl, by simpa [same] using read⟩

/-! ### Texts -/

/-- Bytes that belong to the character before them are skipped. -/
theorem unitsFrom_append (skipped rest : Bytes) :
    unitsFrom skipped.length (skipped ++ rest) = unitsFrom 0 rest := by
  induction skipped with
  | nil => rfl
  | cons byte skipped ih => exact ih

/-- The bytes of a character in front of others are read as this character. -/
theorem unitsFrom_utf8EncodeChar (c : Char) (rest : Bytes) :
    unitsFrom 0 (String.utf8EncodeChar c ++ rest) = some c :: unitsFrom 0 rest := by
  obtain ⟨lead, more, bytes, read⟩ := unitAt_utf8EncodeChar c rest
  rw [bytes, List.cons_append, unitsFrom, read]
  exact congrArg _ (unitsFrom_append more rest)

/-- The bytes of a text are read as its characters, each of them well-formed. -/
theorem unitsFrom_flatMap (text : List Char) :
    unitsFrom 0 (text.flatMap String.utf8EncodeChar) = text.map some := by
  induction text with
  | nil => rfl
  | cons c text ih => rw [List.flatMap_cons, unitsFrom_utf8EncodeChar, ih, List.map_cons]

theorem wellFormed?_map_some (text : List Char) : wellFormed? (text.map some) = some text := by
  induction text with
  | nil => rfl
  | cons c text ih => rw [List.map_cons, wellFormed?, ih, Option.map_some]

/-- The units of an encoded text are its characters. -/
theorem unitsFrom_encodeUtf8 (text : String) :
    unitsFrom 0 (encodeUtf8 text) = text.toList.map some :=
  unitsFrom_flatMap text.toList

/-- Nothing is replaced in an encoded text. -/
theorem decodeUtf8Lossy_encodeUtf8 (text : String) : decodeUtf8Lossy (encodeUtf8 text) = text := by
  have kept : ((fun unit => unit.getD replacement) : Option Char → Char) ∘ some = id := rfl
  rw [decodeUtf8Lossy, unitsFrom_encodeUtf8, List.map_map, kept, List.map_id, String.ofList_toList]

/-- The bytes of a text are read as that text. Each character is read as a whole from the bytes in which
it is written, whatever follows them, so that the bytes of a text are divided as they were put
together. -/
theorem decodeUtf8?_encodeUtf8 (text : String) : decodeUtf8? (encodeUtf8 text) = some text := by
  rw [decodeUtf8?, encodeUtf8, unitsFrom_flatMap, wellFormed?_map_some, Option.map_some,
    String.ofList_toList]

end EnvInventory.Encoding
