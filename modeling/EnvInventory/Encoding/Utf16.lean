import EnvInventory.Encoding.Utf8

/-!
# UTF-16

Pairs of bytes are units of sixteen bits, in little-endian or big-endian order.  A high surrogate
followed by a low one is one character; a surrogate without its partner is U+FFFD, and so is a byte
cut off at the end.
-/

namespace EnvInventory.Encoding

/-- Order of the two bytes of a unit. -/
inductive ByteOrder where
  | little
  | big
deriving Repr, DecidableEq

/-- The unit of two bytes. -/
def unit16 : ByteOrder → UInt8 → UInt8 → Nat
  | .little, first, second => second.toNat * 256 + first.toNat
  | .big, first, second => first.toNat * 256 + second.toNat

/-- The units of the bytes, and whether a byte is cut off at the end. -/
def units16 (order : ByteOrder) : Bytes → List Nat × Bool
  | [] => ([], false)
  | [_] => ([], true)
  | first :: second :: rest =>
      let (units, cut) := units16 order rest
      (unit16 order first second :: units, cut)

/-- First half of a surrogate pair. -/
def isHighSurrogate (unit : Nat) : Bool :=
  0xD800 ≤ unit && unit < 0xDC00

/-- Second half of a surrogate pair. -/
def isLowSurrogate (unit : Nat) : Bool :=
  0xDC00 ≤ unit && unit < 0xE000

def pairChar (high low : Nat) : Char :=
  Char.ofNat (0x10000 + (high - 0xD800) * 1024 + (low - 0xDC00))

/-- The character of a unit that belongs to no pair. -/
def loneChar (unit : Nat) : Char :=
  if isHighSurrogate unit || isLowSurrogate unit then replacement else Char.ofNat unit

/-- The characters of the units; `cut` says that a byte is cut off behind them.  A high surrogate
right before the cut and the cut itself are replaced together. -/
def decodeUnits16 (cut : Bool) : List Nat → List Char
  | [] => if cut then [replacement] else []
  | [unit] =>
      if cut && !isHighSurrogate unit then [loneChar unit, replacement] else [loneChar unit]
  | unit :: next :: rest =>
      if isHighSurrogate unit && isLowSurrogate next then
        pairChar unit next :: decodeUnits16 cut rest
      else loneChar unit :: decodeUnits16 cut (next :: rest)

def decodeUtf16 (order : ByteOrder) (bytes : Bytes) : String :=
  let (units, cut) := units16 order bytes
  String.ofList (decodeUnits16 cut units)

/-- The one or two units of a character. -/
def charUnits16 (c : Char) : List Nat :=
  let n := c.toNat
  if n < 0x10000 then [n]
  else [0xD800 + (n - 0x10000) / 1024, 0xDC00 + (n - 0x10000) % 1024]

end EnvInventory.Encoding
