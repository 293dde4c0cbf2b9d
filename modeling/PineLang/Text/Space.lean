import PineLang.Text.Utf8

/-!
# White space
-/
namespace PineLang.Text

/-- A space of any script, or a line separator. -/
def isSpace (c : Char) : Bool :=
  let n := c.toNat
  (9 ≤ n && n ≤ 13) || n == 0x20 || n == 0x85 || n == 0xA0 || n == 0x1680 ||
    (0x2000 ≤ n && n ≤ 0x200A) || n == 0x2028 || n == 0x2029 || n == 0x202F || n == 0x205F ||
    n == 0x3000

/-- The bytes are white space throughout. -/
def isBlankText (bs : Bytes) : Bool := (chars bs).all isSpace

/-- The string without white space at its ends. -/
def trimSpace (s : String) : String :=
  String.ofList ((s.toList.dropWhile isSpace).reverse.dropWhile isSpace).reverse

/-- The bytes without white space at their ends. -/
def trimSpaceBytes (bs : Bytes) : Bytes :=
  let isBlank (u : Unit8) := isSpace u.toChar
  (((units bs).dropWhile isBlank).reverse.dropWhile isBlank).reverse.flatMap Unit8.bytes

end PineLang.Text
