import EnvInventory.Proofs.Encoding.Utf16
import EnvInventory.Proofs.Sources.Inputs

/-!
# Sources in several encodings

A text can be saved in UTF-8 with or without a byte order mark, or in UTF-16 in either byte order behind a
mark; only a text that begins with the mark itself needs one in front.  However a source is saved, its
document is the same, and so is whatever is made of it.  The main statement is `decodeText_saved`.
-/

namespace EnvInventory

open Log (Traced)

namespace Encoding

/-- The character that serves as byte order mark. -/
def markChar : Char := '\uFEFF'

def utf8Mark : Bytes := [0xEF, 0xBB, 0xBF]

def utf16Mark : ByteOrder → Bytes
  | .little => [0xFF, 0xFE]
  | .big => [0xFE, 0xFF]

/-- The encoding that is announced by a mark in UTF-16. -/
def TextEncoding.ofByteOrder : ByteOrder → TextEncoding
  | .little => .utf16Little
  | .big => .utf16Big

/-! ### Detection -/

/-- Behind the mark of UTF-8 the text is read back, and the mark itself is gone. -/
theorem decodeText_utf8Mark (text : String) :
    decodeText (utf8Mark ++ encodeUtf8 text) = (text, .utf8Bom) := by
  have announced : byteOrderMark? (utf8Mark ++ encodeUtf8 text)
      = some (.utf8Bom, encodeUtf8 text) := rfl
  simp only [decodeText, announced, decodeMarked, decodeUtf8Lossy_encodeUtf8]

/-- Behind a mark of UTF-16 the text is read back in the order the mark names. -/
theorem decodeText_utf16Mark (order : ByteOrder) (text : String) :
    decodeText (utf16Mark order ++ encodeUtf16 order text) = (text, .ofByteOrder order) := by
  have announced : byteOrderMark? (utf16Mark order ++ encodeUtf16 order text)
      = some (.ofByteOrder order, encodeUtf16 order text) := by
    cases order <;> rfl
  cases order with
  | little => simp only [decodeText, announced, TextEncoding.ofByteOrder, decodeMarked,
      decodeUtf16_encodeUtf16]
  | big => simp only [decodeText, announced, TextEncoding.ofByteOrder, decodeMarked,
      decodeUtf16_encodeUtf16]

/-- The bytes of a text begin like a mark only when the text begins with the mark.  The marks of UTF-16
are no UTF-8 at all. -/
theorem byteOrderMark?_encodeUtf8 {text : String} (unmarked : text.toList.head? ≠ some markChar) :
    byteOrderMark? (encodeUtf8 text) = none := by
  have units := unitsFrom_encodeUtf8 text
  unfold byteOrderMark?
  split
  case h_1 rest same =>
      have marked : unitsFrom 0 (0xEF :: 0xBB :: 0xBF :: rest)
          = some markChar :: unitsFrom 0 rest := rfl
      rw [same, marked] at units
      cases characters : text.toList with
      | nil => simp [characters] at units
      | cons c others =>
          rw [characters, List.map_cons, List.cons.injEq, Option.some.injEq] at units
          exact absurd (by rw [characters, List.head?_cons, units.1]) unmarked
  case h_2 rest same =>
      have malformed : unitsFrom 0 (0xFF :: 0xFE :: rest) = none :: unitsFrom 0 (0xFE :: rest) := rfl
      rw [same, malformed] at units
      cases characters : text.toList <;> simp [characters] at units
  case h_3 rest same =>
      have malformed : unitsFrom 0 (0xFE :: 0xFF :: rest) = none :: unitsFrom 0 (0xFF :: rest) := rfl
      rw [same, malformed] at units
      cases characters : text.toList <;> simp [characters] at units
  case h_4 => rfl

/-- Without a mark the text is read back as UTF-8, if it does not start with the character of the mark. -/
theorem decodeText_encodeUtf8 {text : String} (unmarked : text.toList.head? ≠ some markChar) :
    decodeText (encodeUtf8 text) = (text, .utf8) := by
  simp only [decodeText, byteOrderMark?_encodeUtf8 unmarked, decodeUtf8?_encodeUtf8]

/-! ### Saved texts -/

/-- The ways in which a text can be saved. -/
inductive Saved (text : String) : Bytes → Prop
  | utf8Bom : Saved text (utf8Mark ++ encodeUtf8 text)
  | utf16 (order : ByteOrder) : Saved text (utf16Mark order ++ encodeUtf16 order text)
  | utf8 : text.toList.head? ≠ some markChar → Saved text (encodeUtf8 text)

/-- A saved text is read back, and never as a guess. -/
theorem Saved.decodeText {text : String} {bytes : Bytes} (saved : Saved text bytes) :
    ∃ encoding, decodeText bytes = (text, encoding) ∧ encoding.isFallback = false := by
  cases saved with
  | utf8Bom => exact ⟨_, decodeText_utf8Mark text, rfl⟩
  | utf16 order => exact ⟨_, decodeText_utf16Mark order text, by cases order <;> rfl⟩
  | utf8 unmarked => exact ⟨_, decodeText_encodeUtf8 unmarked, rfl⟩

end Encoding

namespace SourcePlan

open Encoding (Saved utf8Mark utf16Mark markChar encodeUtf8 encodeUtf16 decodeText)

/-- A file in which a text was saved is read as that text, without a warning. -/
theorem decode_of_saved {text : String} {content : Encoding.Bytes} (saved : Saved text content)
    (plan : SourcePlan) (path : String) :
    plan.decode path content = pure ⟨plan.id path, text⟩ := by
  obtain ⟨encoding, decoded, noGuess⟩ := saved.decodeText
  simp only [decode, decoded, noGuess, Bool.false_eq_true, if_false]

/-- What is read from a path in two trees: the same, or one text saved in two ways. -/
inductive HoldsSame (before after : FileTree) (path : String) : Prop
  | same : after.readBytes path = before.readBytes path → HoldsSame before after path
  | saved {text : String} {content content' : Encoding.Bytes} :
      before.readBytes path = .ok content → Saved text content →
        after.readBytes path = .ok content' → Saved text content' → HoldsSame before after path

/-- Two trees that hold the same text at a path read the same there. -/
theorem HoldsSame.readOptional {before after : FileTree} {path : String}
    (holds : HoldsSame before after path) (plan : SourcePlan) :
    plan.readOptional after path = plan.readOptional before path := by
  cases holds with
  | same same => simp only [SourcePlan.readOptional, same]
  | saved read saved read' saved' =>
      simp only [SourcePlan.readOptional, read, read', decode_of_saved saved, decode_of_saved saved']

/-- A text is read back from each of the ways in which it can be saved; a mark in the text itself stays
there. So sources that hold the same texts are loaded alike, however each of them is saved.

Texts are arbitrary. Without a mark a text must not start with the character of the mark, which would be
taken for one. Each file of a plan may be saved in a way of its own, and the loaded sources are equal with
their warnings and errors. -/
theorem decodeText_saved (text : String) :
    decodeText (utf8Mark ++ encodeUtf8 text) = (text, .utf8Bom)
      ∧ decodeText (utf16Mark .little ++ encodeUtf16 .little text) = (text, .utf16Little)
      ∧ decodeText (utf16Mark .big ++ encodeUtf16 .big text) = (text, .utf16Big)
      ∧ (text.toList.head? ≠ some markChar → decodeText (encodeUtf8 text) = (text, .utf8))
      ∧ ∀ {before after : FileTree} {plan : SourcePlan},
        (∀ path ∈ plan.files, HoldsSame before after path) → plan.load after = plan.load before := by
  refine ⟨Encoding.decodeText_utf8Mark text, Encoding.decodeText_utf16Mark .little text,
    Encoding.decodeText_utf16Mark .big text, Encoding.decodeText_encodeUtf8, ?_⟩
  intro before after plan holds
  apply load_of_readOptional
  intro path member
  exact (holds path member).readOptional plan

/-- A tree with an entry script of the given content, and nothing else. -/
def scriptTree (content : Encoding.Bytes) : FileTree :=
  ⟨[], [(["entry"], .file content FileTree.fileMode)]⟩

/-- The plan for such a tree. -/
def scriptPlan : SourcePlan :=
  ⟨".", .repoSamples, "entry", "template", [], []⟩

/-- The bytes of a null character and a clef, in UTF-16 behind a mark: the null character does not turn the
mark into another one. -/
def nullAndClef : Encoding.Bytes :=
  [0xFF, 0xFE, 0x00, 0x00, 0x34, 0xD8, 0x1E, 0xDD]

/-- A null character and a clef outside the basic plane, in UTF-16 and in UTF-8, and a mark behind a mark. -/
theorem decodeText_saved_nullAndClef :
    decodeText nullAndClef = ("\x00𝄞", .utf16Little)
      ∧ ("\x00𝄞".toList.head? ≠ some markChar ∧ decodeText (encodeUtf8 "\x00𝄞") = ("\x00𝄞", .utf8))
      ∧ decodeText (utf8Mark ++ encodeUtf8 "\uFEFF") = ("\uFEFF", .utf8Bom)
      ∧ (∀ path ∈ scriptPlan.files,
          HoldsSame (scriptTree (encodeUtf8 "\x00𝄞")) (scriptTree nullAndClef) path)
      ∧ scriptPlan.load (scriptTree nullAndClef) = scriptPlan.load (scriptTree (encodeUtf8 "\x00𝄞")) := by
  obtain ⟨-, little, -, plain, alike⟩ := decodeText_saved "\x00𝄞"
  have bytes : utf16Mark .little ++ encodeUtf16 .little "\x00𝄞" = nullAndClef := by decide
  have unmarked : "\x00𝄞".toList.head? ≠ some markChar := by decide
  have holds : ∀ path ∈ scriptPlan.files,
      HoldsSame (scriptTree (encodeUtf8 "\x00𝄞")) (scriptTree nullAndClef) path := by
    intro path member
    rcases List.mem_pair.1 member with rfl | rfl
    · exact .saved rfl (.utf8 unmarked) rfl (bytes ▸ .utf16 .little)
    · exact .same rfl
  exact ⟨bytes ▸ little, ⟨unmarked, plain unmarked⟩, (decodeText_saved "\uFEFF").1, holds, alike holds⟩

end SourcePlan

end EnvInventory
