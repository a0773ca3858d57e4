import EnvInventory.Encoding.Utf16
import EnvInventory.Encoding.Utf8

/-!
# Detecting the encoding of a file

Files that come out of a server image are in several encodings.  A byte order mark decides, and is
dropped.  Bytes without a mark are UTF-8 when they are well-formed, and otherwise the whole file is
read in the Western code page.

Code page 1252 gives one character to each byte.  Bytes below 80 are ASCII and bytes from A0 on are
the code points of the same number; the block between holds typographic characters, and its five
unassigned bytes stand for the control characters of the same number.
-/

namespace EnvInventory.Encoding

/-! ### The Western code page -/

/-- Code points of the bytes 80 to 9F. -/
def codePageBlock : List Nat :=
  [0x20AC, 0x81, 0x201A, 0x0192, 0x201E, 0x2026, 0x2020, 0x2021, 0x02C6, 0x2030, 0x0160, 0x2039,
   0x0152, 0x8D, 0x017D, 0x8F, 0x90, 0x2018, 0x2019, 0x201C, 0x201D, 0x2022, 0x2013, 0x2014, 0x02DC,
   0x2122, 0x0161, 0x203A, 0x0153, 0x9D, 0x017E, 0x0178]

def codePageChar (byte : UInt8) : Char :=
  let n := byte.toNat
  if n < 0x80 then Char.ofNat n
  else
    match codePageBlock[n - 0x80]? with
    | some code => Char.ofNat code
    | none => Char.ofNat n

/-- The text of bytes in code page 1252. -/
def decodeCodePage (bytes : Bytes) : String :=
  String.ofList (bytes.map codePageChar)

/-! ### Marks and decoding -/

/-- The encodings in which files are read. -/
inductive TextEncoding where
  | utf8
  | utf8Bom
  | utf16Little
  | utf16Big
  | codePage
deriving Repr, DecidableEq, Inhabited

namespace TextEncoding

/-- Whether the encoding was assumed because the bytes are no UTF-8. -/
def isFallback : TextEncoding → Bool
  | .codePage => true
  | _ => false

/-- The name under which an encoding is reported. -/
def label : TextEncoding → String
  | .utf8 => "Utf8"
  | .utf8Bom => "Utf8Bom"
  | .utf16Little => "Utf16Le"
  | .utf16Big => "Utf16Be"
  | .codePage => "Windows1252"

end TextEncoding

/-- The encoding that a byte order mark announces, and the bytes behind the mark. -/
def byteOrderMark? : Bytes → Option (TextEncoding × Bytes)
  | 0xEF :: 0xBB :: 0xBF :: rest => some (.utf8Bom, rest)
  | 0xFF :: 0xFE :: rest => some (.utf16Little, rest)
  | 0xFE :: 0xFF :: rest => some (.utf16Big, rest)
  | _ => none

/-- The text of bytes behind a byte order mark of the encoding. -/
def decodeMarked (encoding : TextEncoding) (bytes : Bytes) : String :=
  match encoding with
  | .utf16Little => decodeUtf16 .little bytes
  | .utf16Big => decodeUtf16 .big bytes
  | _ => decodeUtf8Lossy bytes

/-- The text of a file, and the encoding in which it was read. -/
def decodeText (bytes : Bytes) : String × TextEncoding :=
  match byteOrderMark? bytes with
  | some (encoding, rest) => (decodeMarked encoding rest, encoding)
  | none =>
      match decodeUtf8? bytes with
      | some text => (text, .utf8)
      | none => (decodeCodePage bytes, .codePage)

end EnvInventory.Encoding
