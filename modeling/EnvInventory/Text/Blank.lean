/-!
# White space and lines

Texts are scanned as lists of characters.  This module holds the two notions every scanner shares:
the white-space class, with trimming at both ends, and the division of a text into lines.

A character is blank when it has the Unicode property `White_Space`.  The information separators
U+001C to U+001F, the zero-width space and the byte order mark do not have it.
-/

namespace EnvInventory.Text

/-- The Unicode property `White_Space`. -/
def isBlank (c : Char) : Bool :=
  let n := c.toNat
  (9 ≤ n && n ≤ 13) || n == 0x20 || n == 0x85 || n == 0xA0 || n == 0x1680
    || (0x2000 ≤ n && n ≤ 0x200A) || n == 0x2028 || n == 0x2029 || n == 0x202F
    || n == 0x205F || n == 0x3000

def trimStart (text : List Char) : List Char :=
  text.dropWhile isBlank

def trimEnd (text : List Char) : List Char :=
  (text.reverse.dropWhile isBlank).reverse

def trim (text : List Char) : List Char :=
  trimEnd (trimStart text)

def trimmed (text : String) : String :=
  String.ofList (trim text.toList)

/-- The lines of a text.  A line ends at a line feed, which is not part of it; one carriage return
directly before the line feed is not part of it either, but a carriage return anywhere else is an
ordinary character.  A last line without a line feed counts unless it is empty. -/
def lines : List Char → List (List Char)
  | [] => []
  | '\n' :: rest => [] :: lines rest
  | '\r' :: '\n' :: rest => [] :: lines rest
  | c :: rest =>
      match lines rest with
      | [] => [[c]]
      | line :: others => (c :: line) :: others

end EnvInventory.Text
