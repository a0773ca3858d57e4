import EnvInventory.Encoding.Utf16
import EnvInventory.Proofs.Encoding.Utf8

/-!
# Units of a character

A character of the basic plane is one unit, which is no surrogate.  Any other character is a pair of a
high and a low surrogate, and the pair stands for no other character.  So the units of a text are read as
that text, and so are their bytes in either order: `decodeUtf16_encodeUtf16`.
-/

namespace EnvInventory.Encoding

/-- A character of the basic plane is one unit, which is no surrogate. -/
theorem charUnits16_of_basic {c : Char} (basic : c.toNat < 0x10000) :
    charUnits16 c = [c.toNat] ∧ isHighSurrogate c.toNat = false ∧
      isLowSurrogate c.toNat = false := by
  have scalar := toNat_scalar c
  refine ⟨by simp [charUnits16, basic], ?_, ?_⟩
  · simp only [isHighSurrogate, Bool.and_eq_false_iff, decide_eq_false_iff_not]
    omega
  · simp only [isLowSurrogate, Bool.and_eq_false_iff, decide_eq_false_iff_not]
    omega

/-- The two units of a character above the basic plane. -/
structure SurrogatePair (c : Char) (high low : Nat) : Prop where
  units : charUnits16 c = [high, low]
  isHigh : isHighSurrogate high = true
  isLow : isLowSurrogate low = true
  whole : pairChar high low = c

/-- A character above the basic plane has a pair of surrogates. -/
theorem exists_surrogatePair {c : Char} (above : 0x10000 ≤ c.toNat) :
    ∃ high low, SurrogatePair c high low := by
  have scalar := toNat_scalar c
  have notBasic : ¬ c.toNat < 0x10000 := by omega
  refine ⟨0xD800 + (c.toNat - 0x10000) / 1024, 0xDC00 + (c.toNat - 0x10000) % 1024, ?_, ?_, ?_, ?_⟩
  · simp [charUnits16, notBasic]
  · simp only [isHighSurrogate, Bool.and_eq_true, decide_eq_true_eq]
    omega
  · simp only [isLowSurrogate, Bool.and_eq_true, decide_eq_true_eq]
    omega
  · have code : 0x10000 + (0xD800 + (c.toNat - 0x10000) / 1024 - 0xD800) * 1024
        + (0xDC00 + (c.toNat - 0x10000) % 1024 - 0xDC00) = c.toNat := by omega
    rw [pairChar, code, Char.ofNat_toNat]

theorem SurrogatePair.above {c : Char} {high low : Nat} (pair : SurrogatePair c high low) :
    0x10000 ≤ c.toNat := by
  by_contra basic
  have single := (charUnits16_of_basic (Nat.not_le.1 basic)).1
  simp [pair.units] at single

/-- Units of characters fit into sixteen bits. -/
theorem lt_of_mem_charUnits16 {c : Char} {unit : Nat} (member : unit ∈ charUnits16 c) :
    unit < 0x10000 := by
  have scalar := toNat_scalar c
  simp only [charUnits16] at member
  split at member
  · rw [List.mem_singleton] at member
    omega
  · rw [List.mem_pair] at member
    omega

/-! ### Texts -/

/-- The two bytes of a unit. -/
def bytes16 : ByteOrder → Nat → Bytes
  | .little, unit => [UInt8.ofNat unit, UInt8.ofNat (unit / 256)]
  | .big, unit => [UInt8.ofNat (unit / 256), UInt8.ofNat unit]

/-- The bytes of a text in UTF-16, without a byte order mark. -/
def encodeUtf16 (order : ByteOrder) (text : String) : Bytes :=
  (text.toList.flatMap charUnits16).flatMap (bytes16 order)

/-- The bytes of a unit are read as that unit. -/
theorem units16_bytes16 (order : ByteOrder) {unit : Nat} (fits : unit < 0x10000) (rest : Bytes) :
    units16 order (bytes16 order unit ++ rest)
      = (unit :: (units16 order rest).1, (units16 order rest).2) := by
  have low : (UInt8.ofNat unit).toNat = unit % 256 := UInt8.toNat_ofNat'
  have high : (UInt8.ofNat (unit / 256)).toNat = unit / 256 := toNat_ofNat_of_lt (by omega)
  have whole : unit / 256 * 256 + unit % 256 = unit := by omega
  cases order with
  | little => simp only [bytes16, List.cons_append, List.nil_append, units16, unit16, low, high, whole]
  | big => simp only [bytes16, List.cons_append, List.nil_append, units16, unit16, low, high, whole]

/-- In either byte order the bytes of units are read as these units, with no byte left over. -/
theorem units16_flatMap_bytes16 (order : ByteOrder) {units : List Nat}
    (fit : ∀ unit ∈ units, unit < 0x10000) :
    units16 order (units.flatMap (bytes16 order)) = (units, false) := by
  induction units with
  | nil => rfl
  | cons unit units ih =>
      obtain ⟨fits, others⟩ := List.forall_mem_cons.1 fit
      rw [List.flatMap_cons, units16_bytes16 order fits, ih others]

/-- The units of a character are read as that character, whatever follows them. -/
theorem decodeUnits16_charUnits16 (c : Char) (rest : List Nat) :
    decodeUnits16 false (charUnits16 c ++ rest) = c :: decodeUnits16 false rest := by
  by_cases basic : c.toNat < 0x10000
  · obtain ⟨single, notHigh, notLow⟩ := charUnits16_of_basic basic
    have lone : loneChar c.toNat = c := by simp [loneChar, notHigh, notLow]
    rw [single]
    cases rest with
    | nil => simp [decodeUnits16, lone]
    | cons next rest => simp [decodeUnits16, lone, notHigh]
  · obtain ⟨high, low, pair⟩ := exists_surrogatePair (Nat.not_lt.1 basic)
    rw [pair.units]
    simp [decodeUnits16, pair.isHigh, pair.isLow, pair.whole]

/-- The units of a text are read back as the text; by induction on it, a character taking one unit or a
pair. -/
theorem decodeUnits16_flatMap (text : List Char) :
    decodeUnits16 false (text.flatMap charUnits16) = text := by
  induction text with
  | nil => rfl
  | cons c text ih => rw [List.flatMap_cons, decodeUnits16_charUnits16, ih]

/-- The bytes of a text are read as that text, in either order. A character of the basic plane is one unit
and is no surrogate; any other one is a pair of surrogates, which is read as a whole. -/
theorem decodeUtf16_encodeUtf16 (order : ByteOrder) (text : String) :
    decodeUtf16 order (encodeUtf16 order text) = text := by
  have fit : ∀ unit ∈ text.toList.flatMap charUnits16, unit < 0x10000 := by
    intro unit member
    obtain ⟨c, -, ofChar⟩ := List.mem_flatMap.1 member
    exact lt_of_mem_charUnits16 ofChar
  rw [decodeUtf16, encodeUtf16, units16_flatMap_bytes16 order fit]
  exact (congrArg String.ofList (decodeUnits16_flatMap text.toList)).trans String.ofList_toList

end EnvInventory.Encoding
