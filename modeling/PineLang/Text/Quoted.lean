import PineLang.Text.Utf8
import PineLang.Unicode.Printable

/-!
# Quoted text

Text between quotes in which nothing is invisible: the quote and the backslash are escaped,
controls have their letter escapes, and what is not printable is written by its number.
-/
namespace PineLang.Text

/-- `n` in lower-case hexadecimal, with at least `width` digits. -/
def hexPadded (width n : Nat) : String :=
  let digits := Nat.toDigits 16 n
  String.ofList (List.replicate (width - digits.length) '0' ++ digits)

/-- The bytes in lower-case hexadecimal, two digits each. -/
def hexOfBytes (bs : Bytes) : String :=
  String.join (bs.map fun b => hexPadded 2 b.toNat)

/-- One character as it stands between `quote` marks. -/
def escapeChar (quote : Char) (c : Char) : String :=
  if c == quote then String.ofList ['\\', c]
  else if c == '\\' then "\\\\"
  else if isPrintable c then String.singleton c
  else match c.toNat with
    | 7 => "\\a"
    | 8 => "\\b"
    | 9 => "\\t"
    | 10 => "\\n"
    | 11 => "\\v"
    | 12 => "\\f"
    | 13 => "\\r"
    | n =>
      if n < 0x20 || n == 0x7F then "\\x" ++ hexPadded 2 n
      else if n < 0x10000 then "\\u" ++ hexPadded 4 n
      else "\\U" ++ hexPadded 8 n

/-- A string between double quotes. -/
def quoted (s : String) : String :=
  "\"" ++ String.join (s.toList.map (escapeChar '"')) ++ "\""

/-- Raw text between double quotes; a byte that is part of no character is written by its number. -/
def quotedBytes (bs : Bytes) : String :=
  "\"" ++ String.join ((units bs).map fun u => match u with
    | .char c => escapeChar '"' c
    | .stray b => "\\x" ++ hexPadded 2 b.toNat) ++ "\""

/-- A character between single quotes. -/
def quotedChar (c : Char) : String := "'" ++ escapeChar '\'' c ++ "'"

end PineLang.Text
