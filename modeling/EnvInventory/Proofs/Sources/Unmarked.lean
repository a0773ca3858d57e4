import EnvInventory.Proofs.Encoding.WellFormed
import EnvInventory.Proofs.Sources.Encodings
import Mathlib.Data.List.Nodup

/-!
# Files without a byte order mark

Bytes without a mark are guessed to be in the Western code page exactly when they are no UTF-8.  The guess
gives one character for each byte, keeps ASCII bytes and makes no other byte look like one, so lines and
assignments stay where they are.  Both ways of reading can be undone: the text, with the encoding in which it
was read, determines the bytes.
-/

namespace EnvInventory.Encoding

/-! ### Code page -/

/-- The block keeps clear of ASCII, of the bytes behind it and of the characters that stand for an error. -/
theorem codePageBlock_bounds :
    ∀ code ∈ codePageBlock, 0x80 ≤ code ∧ ¬ (0xA0 ≤ code ∧ code < 0x100) ∧ code < 0xD800 := by
  decide

theorem nodup_codePageBlock : codePageBlock.Nodup := by
  decide

/-- A byte is its own code point outside of the block. -/
theorem toNat_codePageChar (byte : UInt8) :
    (byte.toNat < 0x80 ∨ 0xA0 ≤ byte.toNat) ∧ (codePageChar byte).toNat = byte.toNat
      ∨ 0x80 ≤ byte.toNat ∧ codePageBlock[byte.toNat - 0x80]? = some (codePageChar byte).toNat := by
  have size := byte.toNat_lt
  simp only [codePageChar]
  split_ifs with ascii
  · exact Or.inl ⟨Or.inl ascii, toNat_charOfNat (by omega)⟩
  · split
    case h_1 code there =>
      have scalar : code < 0xD800 := (codePageBlock_bounds code (List.mem_of_getElem? there)).2.2
      exact Or.inr ⟨by omega, by rw [there, toNat_charOfNat (Or.inl scalar)]⟩
    case h_2 behind =>
      have length : codePageBlock.length = 32 := rfl
      have high := List.getElem?_eq_none_iff.1 behind
      exact Or.inl ⟨Or.inr (by omega), toNat_charOfNat (by omega)⟩

/-- ASCII bytes are kept, and no other byte is read as an ASCII character. -/
theorem codePageChar_eq_iff {byte : UInt8} {c : Char} (ascii : c.toNat < 128) :
    codePageChar byte = c ↔ byte = UInt8.ofNat c.toNat := by
  rw [← Char.toNat_inj, ← UInt8.toNat_inj, toNat_ofNat_of_lt (by omega)]
  rcases toNat_codePageChar byte with ⟨-, same⟩ | ⟨high, there⟩
  · rw [same]
  · have bounds := codePageBlock_bounds _ (List.mem_of_getElem? there)
    omega

/-- No byte of the code page stands for the replacement character. -/
theorem codePageChar_ne_replacement (byte : UInt8) : codePageChar byte ≠ replacement := by
  intro same
  have code : (codePageChar byte).toNat = 0xFFFD := congrArg Char.toNat same
  have size := byte.toNat_lt
  rcases toNat_codePageChar byte with ⟨-, own⟩ | ⟨-, there⟩
  · omega
  · have bounds := codePageBlock_bounds _ (List.mem_of_getElem? there)
    omega

/-- Different bytes of the code page stand for different characters. -/
theorem codePageChar_injective : Function.Injective codePageChar := by
  intro byte other same
  have code := congrArg Char.toNat same
  have size := byte.toNat_lt
  have size' := other.toNat_lt
  rw [← UInt8.toNat_inj]
  rcases toNat_codePageChar byte with ⟨outside, own⟩ | ⟨high, there⟩ <;>
    rcases toNat_codePageChar other with ⟨outside', own'⟩ | ⟨high', there'⟩
  · omega
  · have bounds := codePageBlock_bounds _ (List.mem_of_getElem? there')
    omega
  · have bounds := codePageBlock_bounds _ (List.mem_of_getElem? there)
    omega
  · have inside : byte.toNat - 0x80 < codePageBlock.length := (List.getElem?_eq_some_iff.1 there).1
    have position : byte.toNat - 0x80 = other.toNat - 0x80 :=
      (List.getElem?_inj inside nodup_codePageBlock).1 (by rw [there, there', code])
    omega

/-- The code page decodes byte by byte. -/
theorem toList_decodeCodePage (bytes : Bytes) : (decodeCodePage bytes).toList = bytes.map codePageChar := by
  rw [decodeCodePage, String.toList_ofList]

/-- As many characters come out as bytes went in. -/
theorem length_decodeCodePage (bytes : Bytes) : (decodeCodePage bytes).length = bytes.length := by
  rw [← String.length_toList, toList_decodeCodePage, List.length_map]

/-- An ASCII character stands where its byte stands, and nowhere else. -/
theorem getElem?_decodeCodePage {bytes : Bytes} {i : Nat} {c : Char} (ascii : c.toNat < 128) :
    (decodeCodePage bytes).toList[i]? = some c ↔ bytes[i]? = some (UInt8.ofNat c.toNat) := by
  rw [toList_decodeCodePage, List.getElem?_map, Option.map_eq_some_iff]
  constructor
  · rintro ⟨byte, there, read⟩
    rw [there, (codePageChar_eq_iff ascii).1 read]
  · intro there
    exact ⟨_, there, (codePageChar_eq_iff ascii).2 rfl⟩

theorem replacement_notMem_decodeCodePage (bytes : Bytes) :
    replacement ∉ (decodeCodePage bytes).toList := by
  rw [toList_decodeCodePage, List.mem_map]
  rintro ⟨byte, -, read⟩
  exact codePageChar_ne_replacement byte read

/-- Contents that are decoded alike by the code page are the same. -/
theorem decodeCodePage_injective : Function.Injective decodeCodePage := by
  intro bytes other same
  have characters := congrArg String.toList same
  rw [toList_decodeCodePage, toList_decodeCodePage] at characters
  exact List.map_injective_iff.2 codePageChar_injective characters

/-! ### Bytes without a mark -/

/-- No byte order mark stands in front of the bytes. -/
def Unmarked (bytes : Bytes) : Prop :=
  ¬ utf8Mark <+: bytes ∧ ∀ order, ¬ utf16Mark order <+: bytes

instance (bytes : Bytes) : Decidable (Unmarked bytes) :=
  decidable_of_iff (¬ utf8Mark <+: bytes ∧ ¬ utf16Mark .little <+: bytes ∧ ¬ utf16Mark .big <+: bytes)
    ⟨fun ⟨utf8, little, big⟩ => ⟨utf8, fun order => by cases order <;> assumption⟩,
      fun ⟨utf8, utf16⟩ => ⟨utf8, utf16 .little, utf16 .big⟩⟩

theorem Unmarked.byteOrderMark? {bytes : Bytes} (unmarked : Unmarked bytes) :
    byteOrderMark? bytes = none := by
  unfold Encoding.byteOrderMark?
  split
  case h_1 rest => exact absurd ⟨rest, rfl⟩ unmarked.1
  case h_2 rest => exact absurd ⟨rest, rfl⟩ (unmarked.2 .little)
  case h_3 rest => exact absurd ⟨rest, rfl⟩ (unmarked.2 .big)
  case h_4 => rfl

/-- Bytes without a mark are the bytes of the text that is read, or no bytes of a text at all. -/
theorem Unmarked.decodeText_eq {bytes : Bytes} (unmarked : Unmarked bytes) :
    (∃ text, bytes = encodeUtf8 text ∧ decodeText bytes = (text, .utf8))
      ∨ ¬ bytes.toByteArray.IsValidUTF8 ∧ decodeText bytes = (decodeCodePage bytes, .codePage) := by
  cases read : decodeUtf8? bytes with
  | some text =>
      refine Or.inl ⟨text, decodeUtf8?_eq_some_iff.1 read, ?_⟩
      simp only [decodeText, unmarked.byteOrderMark?, read]
  | none =>
      refine Or.inr ⟨decodeUtf8?_eq_none_iff.1 read, ?_⟩
      simp only [decodeText, unmarked.byteOrderMark?, read]

/-- Without a mark the code page is used exactly for contents that are not UTF-8. -/
theorem Unmarked.codePage_iff {bytes : Bytes} (unmarked : Unmarked bytes) :
    (decodeText bytes).2 = .codePage ↔ ¬ bytes.toByteArray.IsValidUTF8 := by
  rcases unmarked.decodeText_eq with ⟨text, spelt, read⟩ | ⟨invalid, read⟩
  · rw [read]
    exact iff_of_false TextEncoding.noConfusion (not_not_intro (isValidUTF8_iff.2 ⟨text, spelt⟩))
  · rw [read]
    exact iff_of_true rfl invalid

/-- Without a mark the text and the encoding that was used tell the content. -/
theorem Unmarked.eq_of_decodeText_eq {bytes other : Bytes} (unmarked : Unmarked bytes)
    (unmarked' : Unmarked other) (same : decodeText bytes = decodeText other) : bytes = other := by
  rcases unmarked.decodeText_eq with ⟨text, spelt, read⟩ | ⟨-, read⟩ <;>
    rcases unmarked'.decodeText_eq with ⟨text', spelt', read'⟩ | ⟨-, read'⟩ <;>
      rw [read, read', Prod.mk.injEq] at same
  · rw [spelt, spelt', same.1]
  · exact TextEncoding.noConfusion same.2
  · exact TextEncoding.noConfusion same.2
  · exact decodeCodePage_injective same.1

/-- Bytes without a byte order mark are read in the code page exactly when they are not valid UTF-8. Then
there is one character for each byte, an ASCII character stands exactly where its byte stands, and nothing
is replaced. Other bytes without a mark are never read alike.

The last part compares texts together with the encoding that was used: bytes that are valid UTF-8 and
others that are not may well be read as the same text. -/
theorem decodeText_unmarked {bytes : Bytes} (unmarked : Unmarked bytes) :
    ((decodeText bytes).2 = .codePage ↔ ¬ bytes.toByteArray.IsValidUTF8)
      ∧ (¬ bytes.toByteArray.IsValidUTF8 →
          (decodeText bytes).1.length = bytes.length
            ∧ (∀ (i : Nat) (c : Char), c.toNat < 128 →
                ((decodeText bytes).1.toList[i]? = some c ↔ bytes[i]? = some (UInt8.ofNat c.toNat)))
            ∧ replacement ∉ (decodeText bytes).1.toList)
      ∧ ∀ other, Unmarked other → decodeText bytes = decodeText other → bytes = other := by
  refine ⟨unmarked.codePage_iff, ?_, fun other => unmarked.eq_of_decodeText_eq⟩
  intro invalid
  rcases unmarked.decodeText_eq with ⟨text, spelt, -⟩ | ⟨-, read⟩
  · exact absurd (isValidUTF8_iff.2 ⟨text, spelt⟩) invalid
  · rw [read]
    exact ⟨length_decodeCodePage bytes, fun i c => getElem?_decodeCodePage,
      replacement_notMem_decodeCodePage bytes⟩

/-- An overlong equals sign behind a proper one, a surrogate, a line feed, and a euro sign that is cut off. -/
def malformed : Bytes :=
  [0x4B, 0x3D, 0xC0, 0xBD, 0xED, 0xA0, 0x80, 0x0A, 0xE2, 0x82]

/-- The overlong sign is no equals sign, and the line feed stays in its place. -/
theorem decodeText_unmarked_malformed :
    Unmarked malformed ∧ ¬ malformed.toByteArray.IsValidUTF8
      ∧ decodeText malformed = ("K=À½í\u00A0€\nâ‚", .codePage)
      ∧ (decodeText malformed).1.length = malformed.length
      ∧ (decodeText malformed).1.toList[7]? = some '\n'
      ∧ replacement ∉ (decodeText malformed).1.toList
      ∧ Unmarked (encodeUtf8 "é") ∧ decodeText malformed ≠ decodeText (encodeUtf8 "é") := by
  have unmarked : Unmarked malformed := by decide
  have unmarked' : Unmarked (encodeUtf8 "é") := by decide
  have read : decodeText malformed = ("K=À½í\u00A0€\nâ‚", .codePage) := by decide
  obtain ⟨reported, guessed, determined⟩ := decodeText_unmarked unmarked
  have invalid := reported.1 (congrArg Prod.snd read)
  obtain ⟨length, kept, nothing⟩ := guessed invalid
  have differs : malformed ≠ encodeUtf8 "é" := by decide
  exact ⟨unmarked, invalid, read, length, (kept 7 '\n' (by decide)).2 rfl, nothing, unmarked',
    fun same => differs (determined _ unmarked' same)⟩

end EnvInventory.Encoding
