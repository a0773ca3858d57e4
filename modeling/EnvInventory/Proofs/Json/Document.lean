import EnvInventory.Proofs.Json.RoundTrip

/-!
# Written documents

A document in the file form is pure ASCII, ends with one line feed, and is read back as the value it
was written for, as long as the numbers of the value are integers within 64 bits and its containers
are not nested deeper than the reader follows.  Values are compared up to the order of fields by their
normal forms, of which the same holds.

The main statement is `render_readBack`.
-/

namespace EnvInventory.Json

open Encoding

/-! ### ASCII -/

def Ascii (text : List Char) : Prop :=
  ∀ c ∈ text, c.toNat < 0x80

instance (text : List Char) : Decidable (Ascii text) :=
  decidable_of_iff (text.all (fun c => decide (c.toNat < 0x80)) = true) (by simp [Ascii])

theorem Ascii.append {first second : List Char} (asciiFirst : Ascii first)
    (asciiSecond : Ascii second) : Ascii (first ++ second) :=
  List.forall_mem_append.2 ⟨asciiFirst, asciiSecond⟩

theorem Ascii.cons {c : Char} (ascii : c.toNat < 0x80) {text : List Char} (asciiText : Ascii text) :
    Ascii (c :: text) :=
  List.forall_mem_cons.2 ⟨ascii, asciiText⟩

theorem ascii_newLine (depth : Nat) : Ascii (newLine depth) := by
  refine Ascii.cons (by decide) fun c member => ?_
  rw [List.eq_of_mem_replicate member]
  decide

/-- A quoted text is ASCII, as every other character is escaped. -/
theorem ascii_quote (text : String) : Ascii (quote true text) := by
  rw [quote_eq]
  exact Ascii.cons (by decide) (ascii_quoted text.toList)

/-- An integer is written with digits and a sign. -/
theorem sign_or_digit_of_mem_text {value : Int} {c : Char}
    (member : c ∈ Number.text (.integer value)) : c = '-' ∨ c.isDigit = true := by
  rw [text_integer] at member
  by_cases negative : value < 0
  · rw [if_pos negative] at member
    exact (List.mem_cons.1 member).imp_right (Digits.isDigit_of_mem_toDigits c)
  · rw [if_neg negative] at member
    exact Or.inr (Digits.isDigit_of_mem_toDigits c member)

/-- Items are ASCII if each of them is. -/
theorem ascii_renderItems {depth : Nat} {items : List Value}
    (members : ∀ item ∈ items, Ascii (renderValue depth item)) : Ascii (renderItems depth items) := by
  induction items with
  | nil => exact List.forall_mem_nil _
  | cons item items ih =>
      obtain ⟨first, rest⟩ := List.forall_mem_cons.1 members
      rw [renderItems]
      exact ((Ascii.cons (by decide) (ascii_newLine depth)).append first).append (ih rest)

/-- Fields are ASCII if each of their values is. -/
theorem ascii_renderFields {depth : Nat} {fields : List (String × Value)}
    (members : ∀ field ∈ fields, Ascii (renderValue depth field.2)) :
    Ascii (renderFields depth fields) := by
  induction fields with
  | nil => exact List.forall_mem_nil _
  | cons field fields ih =>
      obtain ⟨first, rest⟩ := List.forall_mem_cons.1 members
      rw [renderFields]
      have layout := Ascii.cons (by decide : ','.toNat < 0x80) (ascii_newLine depth)
      have value := Ascii.cons (by decide : ':'.toNat < 0x80)
        (Ascii.cons (by decide : ' '.toNat < 0x80) first)
      exact ((layout.append (ascii_quote field.1)).append value).append (ih rest)

/-- A value whose numbers are exact is rendered in ASCII, at any depth; by induction on the value. -/
theorem ascii_renderValue {value : Value} (exact : value.Exact) (depth : Nat) :
    Ascii (renderValue depth value) := by
  induction value using Value.induction generalizing depth with
  | null =>
      rw [renderValue]
      decide
  | bool value =>
      cases value <;>
        · rw [renderValue]
          decide
  | number number =>
      cases number with
      | float value => exact exact.elim
      | integer value =>
          intro c member
          rcases sign_or_digit_of_mem_text member with rfl | digit
          · decide
          · exact Nat.lt_of_le_of_lt (Digits.range_of_isDigit digit).2 (by decide)
  | string text => exact ascii_quote text
  | array items ih =>
      have members := exactItems_iff.1 exact
      cases items with
      | nil =>
          rw [renderValue]
          decide
      | cons item items =>
          obtain ⟨first, rest⟩ := List.forall_mem_cons.1 fun item member =>
            ih item member (members item member) (depth + 1)
          have opened := Ascii.cons (by decide : '['.toNat < 0x80) (ascii_newLine (depth + 1))
          have closing := Ascii.cons (by decide : ']'.toNat < 0x80) (List.forall_mem_nil _)
          rw [renderValue]
          exact (((opened.append first).append (ascii_renderItems rest)).append
            (ascii_newLine depth)).append closing
  | object fields ih =>
      have members := exactFields_iff.1 exact
      cases fields with
      | nil =>
          rw [renderValue]
          decide
      | cons field fields =>
          obtain ⟨first, rest⟩ := List.forall_mem_cons.1 fun field member =>
            ih field member (members field member) (depth + 1)
          have opened := Ascii.cons (by decide : '{'.toNat < 0x80) (ascii_newLine (depth + 1))
          have value := Ascii.cons (by decide : ':'.toNat < 0x80)
            (Ascii.cons (by decide : ' '.toNat < 0x80) first)
          have closing := Ascii.cons (by decide : '}'.toNat < 0x80) (List.forall_mem_nil _)
          rw [renderValue]
          exact ((((opened.append (ascii_quote field.1)).append value).append
            (ascii_renderFields rest)).append (ascii_newLine depth)).append closing

/-! ### The end of a document -/

/-- No value ends in a line feed, so that the one at the end of the document is the only one there. -/
theorem getLast?_renderValue {value : Value} (exact : value.Exact) (depth : Nat) :
    (renderValue depth value).getLast? ≠ some '\n' := by
  cases value with
  | null =>
      rw [renderValue]
      decide
  | bool value =>
      cases value <;>
        · rw [renderValue]
          decide
  | number number =>
      cases number with
      | float value => exact exact.elim
      | integer value =>
          intro last
          rcases sign_or_digit_of_mem_text (List.mem_of_getLast? last) with sign | digit
          · exact absurd sign (by decide)
          · exact absurd digit (by decide)
  | string text =>
      rw [renderValue, quote, List.getLast?_concat]
      decide
  | array items =>
      cases items with
      | nil =>
          rw [renderValue]
          decide
      | cons item items =>
          rw [renderValue, List.getLast?_concat]
          decide
  | object fields =>
      cases fields with
      | nil =>
          rw [renderValue]
          decide
      | cons field fields =>
          rw [renderValue, List.getLast?_concat]
          decide

/-! ### Texts inside -/

/-- Each item stands in the list of items. -/
theorem item_within_listedItems {depth : Nat} {items : List Value} {item : Value} (member : item ∈ items) :
    renderValue depth item <:+: listedItems depth items := by
  induction items with
  | nil => exact absurd member List.not_mem_nil
  | cons first items ih =>
      rcases List.mem_cons.1 member with rfl | later
      · exact (List.prefix_append _ _).isInfix
      · cases items with
        | nil => exact absurd later List.not_mem_nil
        | cons next items =>
            have behind : listedItems depth (next :: items)
                <:+: listedItems depth (first :: next :: items) :=
              ⟨renderValue depth first ++ ',' :: newLine depth, [], by
                simp [listedItems, renderItems]⟩
            exact (ih later).trans behind

/-- Each field stands in the list of fields, with its name and its value. -/
theorem field_within_listedFields {depth : Nat} {fields : List (String × Value)} {field : String × Value}
    (member : field ∈ fields) :
    quote true field.1 <:+: listedFields depth fields
      ∧ renderValue depth field.2 <:+: listedFields depth fields := by
  induction fields with
  | nil => exact absurd member List.not_mem_nil
  | cons first fields ih =>
      rcases List.mem_cons.1 member with rfl | later
      · exact ⟨⟨[], ':' :: ' ' :: renderValue depth field.2 ++ renderFields depth fields, by
            simp [listedFields]⟩,
          ⟨quote true field.1 ++ [':', ' '], renderFields depth fields, by simp [listedFields]⟩⟩
      · cases fields with
        | nil => exact absurd later List.not_mem_nil
        | cons next fields =>
            have behind : listedFields depth (next :: fields)
                <:+: listedFields depth (first :: next :: fields) :=
              ⟨quote true first.1 ++ ':' :: ' ' :: renderValue depth first.2 ++ ',' :: newLine depth,
                [], by simp [listedFields, renderFields]⟩
            exact ⟨(ih later).1.trans behind, (ih later).2.trans behind⟩

theorem items_within_array (depth : Nat) (items : List Value) :
    listedItems (depth + 1) items <:+: renderValue depth (.array items) := by
  cases items with
  | nil => exact List.nil_infix
  | cons item items =>
      exact ⟨'[' :: newLine (depth + 1), newLine depth ++ [']'], by simp [renderValue, listedItems]⟩

theorem fields_within_object (depth : Nat) (fields : List (String × Value)) :
    listedFields (depth + 1) fields <:+: renderValue depth (.object fields) := by
  cases fields with
  | nil => exact List.nil_infix
  | cons field fields =>
      exact ⟨'{' :: newLine (depth + 1), newLine depth ++ ['}'], by simp [renderValue, listedFields]⟩

/-- Every text of a value stands in its document, in quotes. -/
theorem quote_within_renderValue {value : Value} {text : String} (member : text ∈ value.texts)
    (depth : Nat) : quote true text <:+: renderValue depth value := by
  induction value using Value.induction generalizing depth with
  | null => exact absurd member List.not_mem_nil
  | bool value => exact absurd member List.not_mem_nil
  | number number => exact absurd member List.not_mem_nil
  | string own =>
      rw [List.mem_singleton.1 member]
      exact List.infix_rfl
  | array items ih =>
      obtain ⟨item, found, inside⟩ := mem_textsOfItems.1 member
      exact ((ih item found inside (depth + 1)).trans (item_within_listedItems found)).trans
        (items_within_array depth items)
  | object fields ih =>
      obtain ⟨field, found, key | inside⟩ := mem_textsOfFields.1 member
      · rw [key]
        exact (field_within_listedFields found).1.trans (fields_within_object depth fields)
      · exact ((ih field found inside (depth + 1)).trans (field_within_listedFields found).2).trans
          (fields_within_object depth fields)

/-! ### Fuel -/

/-- There are not more items than characters to read them from. -/
theorem sizeItems_le {depth : Nat} {items : List Value}
    (members : ∀ item ∈ items, item.size ≤ (renderValue depth item).length + 1) :
    sizeItems items ≤ (renderItems depth items).length := by
  induction items with
  | nil => exact Nat.le_refl 0
  | cons item items ih =>
      obtain ⟨first, rest⟩ := List.forall_mem_cons.1 members
      have others := ih rest
      simp only [sizeItems, renderItems, newLine, List.length_append, List.length_cons]
      omega

/-- There are not more fields than characters to read them from. -/
theorem sizeFields_le {depth : Nat} {fields : List (String × Value)}
    (members : ∀ field ∈ fields, field.2.size ≤ (renderValue depth field.2).length + 1) :
    sizeFields fields ≤ (renderFields depth fields).length := by
  induction fields with
  | nil => exact Nat.le_refl 0
  | cons field fields ih =>
      obtain ⟨first, rest⟩ := List.forall_mem_cons.1 members
      have others := ih rest
      simp only [sizeFields, renderFields, newLine, List.length_append, List.length_cons]
      omega

/-- The reader is called at most once for each character, and once more. -/
theorem size_le_length (value : Value) (depth : Nat) :
    value.size ≤ (renderValue depth value).length + 1 := by
  induction value using Value.induction generalizing depth with
  | null => exact Nat.succ_le_succ (Nat.zero_le _)
  | bool value => exact Nat.succ_le_succ (Nat.zero_le _)
  | number number => exact Nat.succ_le_succ (Nat.zero_le _)
  | string text => exact Nat.succ_le_succ (Nat.zero_le _)
  | array items ih =>
      cases items with
      | nil => exact Nat.succ_le_succ (Nat.zero_le _)
      | cons item items =>
          obtain ⟨first, rest⟩ := List.forall_mem_cons.1 ih
          have this := first (depth + 1)
          have others := sizeItems_le fun item member => rest item member (depth + 1)
          simp only [Value.size, sizeItems, renderValue, newLine, List.length_append, List.length_cons]
          omega
  | object fields ih =>
      cases fields with
      | nil => exact Nat.succ_le_succ (Nat.zero_le _)
      | cons field fields =>
          obtain ⟨first, rest⟩ := List.forall_mem_cons.1 ih
          have this := first (depth + 1)
          have others := sizeFields_le fun field member => rest field member (depth + 1)
          simp only [Value.size, sizeFields, renderValue, newLine, List.length_append,
            List.length_cons]
          omega

/-! ### Documents -/

theorem toList_render (value : Value) : (render value).toList = renderValue 0 value ++ ['\n'] :=
  String.toList_ofList

/-- A rendered value is read back.  The fuel of the reader grows with the length of the text, which bounds the
calls that the value takes, and the line feed at the end is the white space that may follow a value. -/
theorem read?_render {value : Value} (exact : value.Exact) (shallow : value.height ≤ maxDepth) :
    read? (render value) = some value := by
  have enough : value.size ≤ 2 * (render value).toList.length + 2 := by
    have bound := size_le_length value 0
    rw [toList_render, List.length_append]
    omega
  have ends : EndsNumber ['\n'] := endsNumber_newLine 0 []
  have read := readValue_renderValue value 0 exact shallow enough ends
  rw [← toList_render] at read
  simp only [read?, read]
  rfl

/-- A document that stands for its value: the text is the only one for the value, and the value the
only one for the text. -/
structure Faithful (value : Value) : Prop where
  ascii : Ascii (render value).toList
  /-- The line feed at the end is the only one there. -/
  lineEnd : ∃ body, (render value).toList = body ++ ['\n'] ∧ body.getLast? ≠ some '\n'
  readBack : read? (render value) = some value
  injective : ∀ other : Value, other.Exact → other.height ≤ maxDepth →
    render other = render value → other = value
  /-- A character above the basic plane stands in its text as the escapes of two surrogates. -/
  surrogates : ∀ text ∈ value.texts, ∀ before c after, text.toList = before ++ c :: after →
    0x10000 ≤ c.toNat → ∃ high low, SurrogatePair c high low ∧
      '"' :: before.flatMap (escapeChar true) ++ (unitEscape high ++ unitEscape low) ++ quoted after
        <:+: (render value).toList

/-- A value within the limits of the reader has a faithful document. That different values have different
documents follows from reading them back; the rest is said of the characters of the text. -/
theorem faithful {value : Value} (exact : value.Exact) (shallow : value.height ≤ maxDepth) :
    Faithful value where
  ascii := by
    rw [toList_render]
    exact (ascii_renderValue exact 0).append (ascii_newLine 0)
  lineEnd := ⟨renderValue 0 value, toList_render value, getLast?_renderValue exact 0⟩
  readBack := read?_render exact shallow
  injective := by
    intro other exactOther shallowOther same
    have read := read?_render exactOther shallowOther
    rw [same, read?_render exact shallow] at read
    exact (Option.some.inj read).symm
  surrogates := by
    intro text member before c after parts above
    obtain ⟨high, low, pair⟩ := exists_surrogatePair above
    have written := quote_within_renderValue member 0
    rw [quote_eq, parts, quoted_surrogatePair pair] at written
    refine ⟨high, low, pair, ?_⟩
    rw [toList_render]
    exact written.trans (List.prefix_append _ _).isInfix

/-- Values of integers within 64 bits whose containers the reader can follow have faithful documents, and
so have their normal forms; these are the same only for values that differ in nothing but the order of
fields.

Texts are arbitrary, with control characters and characters of all planes; objects may repeat a field.
Numbers with a fraction are left out, for their text is not the only one for them. The depth is that up to
which the reader follows containers. -/
theorem render_readBack {value : Value} (exact : value.Exact) (shallow : value.height ≤ maxDepth) :
    Faithful value ∧ Faithful value.normalize ∧ value.normalize.normalize = value.normalize
      ∧ ∀ other : Value, other.Exact → other.height ≤ maxDepth →
        render other.normalize = render value.normalize → other.normalize = value.normalize := by
  have normal := faithful (exact_normalize exact)
    (Nat.le_trans (height_normalize_le value) shallow)
  refine ⟨faithful exact shallow, normal, normalize_normalize value, ?_⟩
  intro other exactOther shallowOther same
  exact normal.injective other.normalize (exact_normalize exactOther)
    (Nat.le_trans (height_normalize_le other) shallowOther) same

/-- Keys out of order, an escape of every kind, and the integers at both ends of the range. -/
def mixedValue : Value :=
  .object
    [("z", .array [.null, .bool true, .array [], .object []]),
     ("a\"\\\n\x01é", .string "\u20ac 𝄞 \x7f"),
     ("", .array [.number (.integer (-9223372036854775808)),
       .number (.integer 18446744073709551615)])]

/-- The fields stand out of order, so that the normal form that is read back is another value. -/
theorem render_readBack_mixedValue :
    mixedValue.Exact ∧ mixedValue.height ≤ maxDepth ∧ Faithful mixedValue
      ∧ Faithful mixedValue.normalize := by
  have exact : mixedValue.Exact := by
    simp only [mixedValue, Value.Exact, exactFields, exactItems]
    decide
  have shallow : mixedValue.height ≤ maxDepth := by decide
  have read := render_readBack exact shallow
  exact ⟨exact, shallow, read.1, read.2.1⟩

end EnvInventory.Json
