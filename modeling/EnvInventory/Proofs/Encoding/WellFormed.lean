import EnvInventory.Proofs.Encoding.Utf8

/-!
# Well-formed bytes are encoded text

A unit that is read as a character is made of the bytes of that character and no others: the ranges of the
lead byte and of the byte behind it leave out overlong forms, surrogates and what is beyond the last code
point.  So bytes without malformed units are the bytes of the text that is read from them,
`decodeUtf8?_eq_some_iff`, and bytes with a malformed unit are the bytes of no text at all.
-/

namespace EnvInventory.Encoding

/-! ### One character -/

/-- How bytes spell a code point: by one byte to four, in the ranges of well-formed UTF-8. -/
inductive Spells : Bytes → Nat → Prop
  | one {a : UInt8} : a.toNat < 0x80 → Spells [a] a.toNat
  | two {a b : UInt8} : 0xC2 ≤ a.toNat → a.toNat < 0xE0 → inRange 0x80 0xBF b = true →
      Spells [a, b] ((a.toNat - 0xC0) * 64 + payload b)
  | three {a b c : UInt8} : 0xE0 ≤ a.toNat → a.toNat < 0xF0 →
      inRange (secondOfThree a.toNat).1 (secondOfThree a.toNat).2 b = true → inRange 0x80 0xBF c = true →
      Spells [a, b, c] ((a.toNat - 0xE0) * 4096 + payload b * 64 + payload c)
  | four {a b c d : UInt8} : 0xF0 ≤ a.toNat → a.toNat < 0xF5 →
      inRange (secondOfFour a.toNat).1 (secondOfFour a.toNat).2 b = true → inRange 0x80 0xBF c = true →
      inRange 0x80 0xBF d = true →
      Spells [a, b, c, d]
        ((a.toNat - 0xF0) * 262144 + payload b * 4096 + payload c * 64 + payload d)

/-- The bytes of a unit that is read as a character spell it, and are as many as the unit takes. -/
theorem spells_of_unitAt {lead : UInt8} {rest : Bytes} {c : Char} {width : Nat}
    (read : unitAt lead rest = (some c, width)) :
    ∃ more behind code, rest = more ++ behind ∧ width = more.length + 1 ∧ c = Char.ofNat code
      ∧ Spells (lead :: more) code := by
  simp only [unitAt] at read
  split_ifs at read with ascii short two three four
  · simp only [Prod.mk.injEq, Option.some.injEq] at read
    exact ⟨[], rest, _, rfl, read.2.symm, read.1.symm, .one ascii⟩
  · simp at read
  · split at read
    case h_1 b behind =>
      split_ifs at read with tail
      · simp only [Prod.mk.injEq, Option.some.injEq] at read
        exact ⟨[b], behind, _, rfl, read.2.symm, read.1.symm, .two (by omega) two tail⟩
      · simp at read
    case h_2 => simp at read
  · split at read
    case h_1 b behind =>
      split_ifs at read with second
      · split at read
        case h_1 d behind =>
          split_ifs at read with tail
          · simp only [Prod.mk.injEq, Option.some.injEq] at read
            exact ⟨[b, d], behind, _, rfl, read.2.symm, read.1.symm, .three (by omega) three second tail⟩
          · simp at read
        case h_2 => simp at read
      · simp at read
    case h_2 => simp at read
  · split at read
    case h_1 b behind =>
      split_ifs at read with second
      · split at read
        case h_1 d behind =>
          split_ifs at read with third
          · split at read
            case h_1 e behind =>
              split_ifs at read with tail
              · simp only [Prod.mk.injEq, Option.some.injEq] at read
                exact ⟨[b, d, e], behind, _, rfl, read.2.symm, read.1.symm,
                  .four (by omega) four second third tail⟩
              · simp at read
            case h_2 => simp at read
          · simp at read
        case h_2 => simp at read
      · simp at read
    case h_2 => simp at read
  · simp at read

/-- Every number that is no surrogate and not beyond the last plane is that of a character. -/
theorem toNat_charOfNat {n : Nat} (scalar : n < 0xD800 ∨ 0xE000 ≤ n ∧ n < 0x110000) :
    (Char.ofNat n).toNat = n := by
  have valid : n.isValidChar := by
    rw [Nat.isValidChar]
    omega
  rw [Char.ofNat, dif_pos valid]
  rfl

theorem inRange_iff {low high : Nat} {byte : UInt8} :
    inRange low high byte = true ↔ low ≤ byte.toNat ∧ byte.toNat ≤ high := by
  rw [inRange, Bool.and_eq_true, decide_eq_true_eq, decide_eq_true_eq]

theorem ofNat_eq_of_toNat_eq {n : Nat} {byte : UInt8} (same : n = byte.toNat) : UInt8.ofNat n = byte := by
  rw [same, UInt8.ofNat_toNat]

/-- The bytes of the character of a code point. -/
theorem utf8EncodeChar_ofNat {n : Nat} (scalar : n < 0xD800 ∨ 0xE000 ≤ n ∧ n < 0x110000) :
    String.utf8EncodeChar (Char.ofNat n)
      = if n ≤ 0x7F then [UInt8.ofNat n]
        else if n ≤ 0x7FF then [UInt8.ofNat (n / 64 % 0x20 + 0xC0), UInt8.ofNat (n % 0x40 + 0x80)]
        else if n ≤ 0xFFFF then
          [UInt8.ofNat (n / 4096 % 0x10 + 0xE0), UInt8.ofNat (n / 64 % 0x40 + 0x80),
            UInt8.ofNat (n % 0x40 + 0x80)]
        else
          [UInt8.ofNat (n / 262144 % 0x08 + 0xF0), UInt8.ofNat (n / 4096 % 0x40 + 0x80),
            UInt8.ofNat (n / 64 % 0x40 + 0x80), UInt8.ofNat (n % 0x40 + 0x80)] := by
  have value : (Char.ofNat n).val.toNat = n := toNat_charOfNat scalar
  rw [String.utf8EncodeChar, value]

/-- The character that two bytes spell is written with these bytes. -/
theorem utf8EncodeChar_of_two {a b : UInt8} {n : Nat} (low : 0xC2 ≤ a.toNat) (high : a.toNat < 0xE0)
    (tail : inRange 0x80 0xBF b = true) (spelt : n = (a.toNat - 0xC0) * 64 + payload b) :
    String.utf8EncodeChar (Char.ofNat n) = [a, b] := by
  obtain ⟨lowB, highB⟩ := inRange_iff.1 tail
  unfold payload at spelt
  have first : UInt8.ofNat (n / 64 % 0x20 + 0xC0) = a := ofNat_eq_of_toNat_eq (by omega)
  have last : UInt8.ofNat (n % 0x40 + 0x80) = b := ofNat_eq_of_toNat_eq (by omega)
  rw [utf8EncodeChar_ofNat (by omega), if_neg (by omega), if_pos (by omega), first, last]

/-- The second of three bytes is a continuation that makes no overlong form and no surrogate. -/
theorem secondOfThree_iff {lead : Nat} {byte : UInt8} :
    inRange (secondOfThree lead).1 (secondOfThree lead).2 byte = true
      ↔ inRange 0x80 0xBF byte = true ∧ (lead = 0xE0 → 0xA0 ≤ byte.toNat)
        ∧ (lead = 0xED → byte.toNat ≤ 0x9F) := by
  simp only [inRange_iff, secondOfThree]
  split_ifs <;> simp only <;> omega

/-- The second of four bytes is a continuation that makes no overlong form and stays within the last
plane. -/
theorem secondOfFour_iff {lead : Nat} {byte : UInt8} :
    inRange (secondOfFour lead).1 (secondOfFour lead).2 byte = true
      ↔ inRange 0x80 0xBF byte = true ∧ (lead = 0xF0 → 0x90 ≤ byte.toNat)
        ∧ (lead = 0xF4 → byte.toNat ≤ 0x8F) := by
  simp only [inRange_iff, secondOfFour]
  split_ifs <;> simp only <;> omega

/-- The character that three bytes spell is written with these bytes. -/
theorem utf8EncodeChar_of_three {a b c : UInt8} {n : Nat} (low : 0xE0 ≤ a.toNat) (high : a.toNat < 0xF0)
    (second : inRange (secondOfThree a.toNat).1 (secondOfThree a.toNat).2 b = true)
    (tail : inRange 0x80 0xBF c = true)
    (spelt : n = (a.toNat - 0xE0) * 4096 + payload b * 64 + payload c) :
    String.utf8EncodeChar (Char.ofNat n) = [a, b, c] := by
  obtain ⟨inside, overlong, surrogate⟩ := secondOfThree_iff.1 second
  obtain ⟨lowB, highB⟩ := inRange_iff.1 inside
  obtain ⟨lowC, highC⟩ := inRange_iff.1 tail
  unfold payload at spelt
  have first : UInt8.ofNat (n / 4096 % 0x10 + 0xE0) = a := ofNat_eq_of_toNat_eq (by omega)
  have middle : UInt8.ofNat (n / 64 % 0x40 + 0x80) = b := ofNat_eq_of_toNat_eq (by omega)
  have last : UInt8.ofNat (n % 0x40 + 0x80) = c := ofNat_eq_of_toNat_eq (by omega)
  rw [utf8EncodeChar_ofNat (by omega), if_neg (by omega), if_neg (by omega), if_pos (by omega), first,
    middle, last]

/-- The character that four bytes spell is written with these bytes. -/
theorem utf8EncodeChar_of_four {a b c d : UInt8} {n : Nat} (low : 0xF0 ≤ a.toNat) (high : a.toNat < 0xF5)
    (second : inRange (secondOfFour a.toNat).1 (secondOfFour a.toNat).2 b = true)
    (third : inRange 0x80 0xBF c = true) (tail : inRange 0x80 0xBF d = true)
    (spelt : n = (a.toNat - 0xF0) * 262144 + payload b * 4096 + payload c * 64 + payload d) :
    String.utf8EncodeChar (Char.ofNat n) = [a, b, c, d] := by
  obtain ⟨inside, overlong, beyond⟩ := secondOfFour_iff.1 second
  obtain ⟨lowB, highB⟩ := inRange_iff.1 inside
  obtain ⟨lowC, highC⟩ := inRange_iff.1 third
  obtain ⟨lowD, highD⟩ := inRange_iff.1 tail
  unfold payload at spelt
  have first : UInt8.ofNat (n / 262144 % 0x08 + 0xF0) = a := ofNat_eq_of_toNat_eq (by omega)
  have next : UInt8.ofNat (n / 4096 % 0x40 + 0x80) = b := ofNat_eq_of_toNat_eq (by omega)
  have middle : UInt8.ofNat (n / 64 % 0x40 + 0x80) = c := ofNat_eq_of_toNat_eq (by omega)
  have last : UInt8.ofNat (n % 0x40 + 0x80) = d := ofNat_eq_of_toNat_eq (by omega)
  rw [utf8EncodeChar_ofNat (by omega), if_neg (by omega), if_neg (by omega), if_neg (by omega), first, next,
    middle, last]

/-- The bytes that spell a code point are those of its character. -/
theorem Spells.utf8EncodeChar {bytes : Bytes} {code : Nat} (spells : Spells bytes code) :
    String.utf8EncodeChar (Char.ofNat code) = bytes := by
  cases spells with
  | one ascii => rw [utf8EncodeChar_ofNat (by omega), if_pos (by omega), UInt8.ofNat_toNat]
  | two low high tail => exact utf8EncodeChar_of_two low high tail rfl
  | three low high second tail => exact utf8EncodeChar_of_three low high second tail rfl
  | four low high second third tail => exact utf8EncodeChar_of_four low high second third tail rfl

/-! ### Texts -/

/-- Bytes without malformed units are the bytes of the characters that are read. -/
theorem eq_flatMap_of_wellFormed? {bytes : Bytes} {text : List Char}
    (read : wellFormed? (unitsFrom 0 bytes) = some text) : bytes = text.flatMap String.utf8EncodeChar := by
  match bytes with
  | [] =>
      cases read
      rfl
  | lead :: rest =>
      rw [unitsFrom] at read
      cases unit : unitAt lead rest with
      | mk c? width =>
          simp only [unit] at read
          cases c? with
          | none => cases read
          | some c =>
              obtain ⟨more, behind, code, rfl, rfl, rfl, spells⟩ := spells_of_unitAt unit
              obtain ⟨others, readBehind, rfl⟩ := Option.map_eq_some_iff.1 read
              rw [Nat.add_sub_cancel, unitsFrom_append] at readBehind
              rw [List.flatMap_cons, spells.utf8EncodeChar, ← eq_flatMap_of_wellFormed? readBehind,
                List.cons_append]
termination_by bytes.length
decreasing_by
  subst_vars
  simp only [List.length_cons, List.length_append]
  omega

/-- The bytes that are read as a text are the bytes of this text. With the round trip this says that no
text has two encodings: longer forms of a character and surrogates are refused by the reader. -/
theorem decodeUtf8?_eq_some_iff {bytes : Bytes} {text : String} :
    decodeUtf8? bytes = some text ↔ bytes = encodeUtf8 text := by
  constructor
  · intro read
    obtain ⟨characters, wellFormed, rfl⟩ := Option.map_eq_some_iff.1 read
    rw [encodeUtf8, String.toList_ofList]
    exact eq_flatMap_of_wellFormed? wellFormed
  · rintro rfl
    exact decodeUtf8?_encodeUtf8 text

/-- Bytes are valid when they are the bytes of some text. -/
theorem isValidUTF8_iff {bytes : Bytes} :
    bytes.toByteArray.IsValidUTF8 ↔ ∃ text, bytes = encodeUtf8 text := by
  constructor
  · rintro ⟨characters, same⟩
    refine ⟨String.ofList characters, ?_⟩
    rw [encodeUtf8, String.toList_ofList, List.toByteArray_inj.1 same]
  · rintro ⟨text, rfl⟩
    exact ⟨text.toList, rfl⟩

/-- No text is decoded exactly from bytes that are not well-formed. -/
theorem decodeUtf8?_eq_none_iff {bytes : Bytes} :
    decodeUtf8? bytes = none ↔ ¬ bytes.toByteArray.IsValidUTF8 := by
  rw [isValidUTF8_iff, Option.eq_none_iff_forall_ne_some, not_exists]
  exact forall_congr' fun text => not_congr decodeUtf8?_eq_some_iff

end EnvInventory.Encoding
