import PineLang.Text.Quoted

/-!
# JSON text

Documents with their members in the order given, written with two spaces per level. Characters
that mean something in markup, and line separators, are written by their number.
-/
namespace PineLang.Text

/-- A JSON document. -/
inductive Json where
  | null
  | bool (value : Bool)
  | num (value : Nat)
  | str (value : String)
  | arr (elems : List Json)
  | obj (members : List (String × Json))
  deriving Repr, Inhabited

namespace Json

/-- One character inside a JSON string. -/
def escape (c : Char) : String :=
  match c with
  | '"' => "\\\""
  | '\\' => "\\\\"
  | '\n' => "\\n"
  | '\r' => "\\r"
  | '\t' => "\\t"
  | c =>
    let n := c.toNat
    if n == 8 then "\\b"
    else if n == 12 then "\\f"
    else if n < 0x20 || c == '<' || c == '>' || c == '&' || n == 0x2028 || n == 0x2029 then
      "\\u" ++ hexPadded 4 n
    else String.singleton c

/-- A JSON string. -/
def quote (s : String) : String := "\"" ++ String.join (s.toList.map escape) ++ "\""

/-- A line break and the indentation of a depth. -/
def newline (depth : Nat) : String := "\n" ++ "".pushn ' ' (2 * depth)

mutual

/-- The document from the current column on. -/
def write (depth : Nat) : Json → String
  | .null => "null"
  | .bool b => if b then "true" else "false"
  | .num n => toString n
  | .str s => quote s
  | .arr [] => "[]"
  | .arr (x :: xs) =>
    "[" ++ newline (depth + 1) ++ write (depth + 1) x ++ writeElems (depth + 1) xs ++
      newline depth ++ "]"
  | .obj [] => "\x7b\x7d"
  | .obj (m :: ms) =>
    "\x7b" ++ newline (depth + 1) ++ writeMember (depth + 1) m ++ writeMembers (depth + 1) ms ++
      newline depth ++ "\x7d"

/-- Further elements of an array. -/
def writeElems (depth : Nat) : List Json → String
  | [] => ""
  | x :: xs => "," ++ newline depth ++ write depth x ++ writeElems depth xs

/-- A member of an object. -/
def writeMember (depth : Nat) : String × Json → String
  | (k, v) => quote k ++ ": " ++ write depth v

/-- Further members of an object. -/
def writeMembers (depth : Nat) : List (String × Json) → String
  | [] => ""
  | m :: ms => "," ++ newline depth ++ writeMember depth m ++ writeMembers depth ms

end

mutual

/-- The document on one line, without blanks. -/
def compact : Json → String
  | .null => "null"
  | .bool b => if b then "true" else "false"
  | .num n => toString n
  | .str s => quote s
  | .arr [] => "[]"
  | .arr (x :: xs) => "[" ++ compact x ++ compactElems xs ++ "]"
  | .obj [] => "\x7b\x7d"
  | .obj (m :: ms) => "\x7b" ++ compactMember m ++ compactMembers ms ++ "\x7d"

/-- Further elements of an array. -/
def compactElems : List Json → String
  | [] => ""
  | x :: xs => "," ++ compact x ++ compactElems xs

/-- A member of an object. -/
def compactMember : String × Json → String
  | (k, v) => quote k ++ ":" ++ compact v

/-- Further members of an object. -/
def compactMembers : List (String × Json) → String
  | [] => ""
  | m :: ms => "," ++ compactMember m ++ compactMembers ms

end

/-- The document with indentation and a final line break. -/
def text (j : Json) : String := write 0 j ++ "\n"

end Json
end PineLang.Text
