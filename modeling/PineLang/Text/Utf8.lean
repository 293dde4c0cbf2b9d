/-!
# Bytes and UTF-8

Source text is a list of bytes, which need not be valid UTF-8. Decoding never fails: where no
character starts, one byte is read as U+FFFD.
-/
namespace PineLang

/-- Raw text, as it stands in a file. -/
abbrev Bytes := List UInt8

/-- The UTF-8 bytes of a string. -/
def utf8 (s : String) : Bytes := s.toUTF8.toList

namespace Text

/-- What stands for a byte that no character starts with. -/
def replacement : Char := Char.ofNat 0xFFFD

/-- A byte that continues a character. -/
def isTail (b : UInt8) : Bool := 0x80 ≤ b && b ≤ 0xBF

/-- The bits a continuation byte adds. -/
def tailBits (b : UInt8) : Nat := b.toNat % 64

/-- The first character and the number of bytes it takes. A byte that starts no well-formed
    character is read alone, as the replacement character; no bytes give width zero. -/
@[grind =] def decodeHead : Bytes → Char × Nat
  | [] => (replacement, 0)
  | a :: rest =>
    if a < 0x80 then (Char.ofNat a.toNat, 1)
    else if a < 0xC2 then (replacement, 1)
    else if a < 0xE0 then
      match rest with
      | b :: _ =>
        if isTail b then (Char.ofNat (a.toNat % 32 * 64 + tailBits b), 2) else (replacement, 1)
      | _ => (replacement, 1)
    else if a < 0xF0 then
      match rest with
      | b :: c :: _ =>
        let low : UInt8 := if a == 0xE0 then 0xA0 else 0x80
        let high : UInt8 := if a == 0xED then 0x9F else 0xBF
        if low ≤ b && b ≤ high && isTail c then
          (Char.ofNat (a.toNat % 16 * 4096 + tailBits b * 64 + tailBits c), 3)
        else (replacement, 1)
      | _ => (replacement, 1)
    else if a < 0xF5 then
      match rest with
      | b :: c :: d :: _ =>
        let low : UInt8 := if a == 0xF0 then 0x90 else 0x80
        let high : UInt8 := if a == 0xF4 then 0x8F else 0xBF
        if low ≤ b && b ≤ high && isTail c && isTail d then
          (Char.ofNat (a.toNat % 8 * 262144 + tailBits b * 4096 + tailBits c * 64 + tailBits d), 4)
        else (replacement, 1)
      | _ => (replacement, 1)
    else (replacement, 1)

/-- A character read from bytes, or one byte that is part of none. -/
inductive Unit8 where
  | char (c : Char)
  | stray (b : UInt8)
  deriving DecidableEq, Repr

/-- The character that a unit is read as. -/
def Unit8.toChar : Unit8 → Char
  | .char c => c
  | .stray _ => replacement

/-- The bytes of a unit. -/
def Unit8.bytes : Unit8 → Bytes
  | .char c => String.utf8EncodeChar c
  | .stray b => [b]

/-- Splits bytes into units, where the first `skip` bytes belong to a character already read. -/
def unitsFrom : Nat → Bytes → List Unit8
  | _, [] => []
  | skip + 1, _ :: rest => unitsFrom skip rest
  | 0, b :: rest =>
    let (c, width) := decodeHead (b :: rest)
    let unit := if width == 1 && b ≥ 0x80 then Unit8.stray b else Unit8.char c
    unit :: unitsFrom (width - 1) rest

/-- The characters of the bytes, and the bytes that are part of none, in order. -/
def units (bs : Bytes) : List Unit8 := unitsFrom 0 bs

/-- The characters of the bytes, each stray byte read as U+FFFD. -/
def chars (bs : Bytes) : List Char := (units bs).map Unit8.toChar

/-- The bytes as a string, each stray byte replaced by U+FFFD. -/
def lossy (bs : Bytes) : String := String.ofList (chars bs)

/-- The bytes are UTF-8 throughout. -/
def isUtf8 (bs : Bytes) : Bool :=
  (units bs).all fun u => match u with
    | .char _ => true
    | .stray _ => false

/-- The string with these bytes, if they are UTF-8. -/
def string? (bs : Bytes) : Option String := if isUtf8 bs then some (lossy bs) else none

end Text
end PineLang
