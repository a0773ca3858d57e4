/-!
# UTF-8

Bytes are read unit by unit.  A unit is either one well-formed character or a maximal prefix of one
that cannot be completed; the latter is read as a single malformed unit.  `decodeUtf8?` accepts only
well-formed input, `decodeUtf8Lossy` puts U+FFFD in place of each malformed unit.
-/

namespace EnvInventory.Encoding

/-- The content of a file. -/
abbrev Bytes := List UInt8

/-- U+FFFD, which stands for what cannot be decoded. -/
def replacement : Char := Char.ofNat 0xFFFD

def encodeUtf8 (text : String) : Bytes :=
  text.toList.flatMap String.utf8EncodeChar

def inRange (low high : Nat) (byte : UInt8) : Bool :=
  low ≤ byte.toNat && byte.toNat ≤ high

/-- Payload of a continuation byte. -/
def payload (byte : UInt8) : Nat :=
  byte.toNat - 0x80

/-- Range of the second byte of a sequence of three bytes: it excludes overlong forms and
surrogates. -/
def secondOfThree (lead : Nat) : Nat × Nat :=
  if lead = 0xE0 then (0xA0, 0xBF) else if lead = 0xED then (0x80, 0x9F) else (0x80, 0xBF)

/-- Range of the second byte of a sequence of four bytes: it excludes overlong forms and code points
above U+10FFFF. -/
def secondOfFour (lead : Nat) : Nat × Nat :=
  if lead = 0xF0 then (0x90, 0xBF) else if lead = 0xF4 then (0x80, 0x8F) else (0x80, 0xBF)

/-- The unit that starts with a byte, given the bytes behind it: its character, absent when the unit
is malformed, and the number of bytes it takes. -/
def unitAt (lead : UInt8) (rest : Bytes) : Option Char × Nat :=
  let n := lead.toNat
  if n < 0x80 then (some (Char.ofNat n), 1)
  else if n < 0xC2 then (none, 1)
  else if n < 0xE0 then
    match rest with
    | b₁ :: _ =>
        if inRange 0x80 0xBF b₁ then (some (Char.ofNat ((n - 0xC0) * 64 + payload b₁)), 2)
        else (none, 1)
    | [] => (none, 1)
  else if n < 0xF0 then
    match rest with
    | b₁ :: rest =>
        if inRange (secondOfThree n).1 (secondOfThree n).2 b₁ then
          match rest with
          | b₂ :: _ =>
              if inRange 0x80 0xBF b₂ then
                (some (Char.ofNat ((n - 0xE0) * 4096 + payload b₁ * 64 + payload b₂)), 3)
              else (none, 2)
          | [] => (none, 2)
        else (none, 1)
    | [] => (none, 1)
  else if n < 0xF5 then
    match rest with
    | b₁ :: rest =>
        if inRange (secondOfFour n).1 (secondOfFour n).2 b₁ then
          match rest with
          | b₂ :: rest =>
              if inRange 0x80 0xBF b₂ then
                match rest with
                | b₃ :: _ =>
                    if inRange 0x80 0xBF b₃ then
                      (some (Char.ofNat ((n - 0xF0) * 262144 + payload b₁ * 4096
                        + payload b₂ * 64 + payload b₃)), 4)
                    else (none, 3)
                | [] => (none, 3)
              else (none, 2)
          | [] => (none, 2)
        else (none, 1)
    | [] => (none, 1)
  else (none, 1)

/-- The units of the bytes behind the given number of bytes. -/
def unitsFrom : Nat → Bytes → List (Option Char)
  | _, [] => []
  | skipped + 1, _ :: rest => unitsFrom skipped rest
  | 0, lead :: rest =>
      let (unit, width) := unitAt lead rest
      unit :: unitsFrom (width - 1) rest

/-- The characters of a list of units, if none is malformed. -/
def wellFormed? : List (Option Char) → Option (List Char)
  | [] => some []
  | none :: _ => none
  | some c :: rest => (wellFormed? rest).map (c :: ·)

def decodeUtf8? (bytes : Bytes) : Option String :=
  (wellFormed? (unitsFrom 0 bytes)).map String.ofList

/-- The text of any bytes, with U+FFFD for each malformed unit. -/
def decodeUtf8Lossy (bytes : Bytes) : String :=
  String.ofList ((unitsFrom 0 bytes).map fun unit => unit.getD replacement)

end EnvInventory.Encoding
