import PineLang.Source.File
import PineLang.Text.Json
import PineLang.Text.Yaml
import PineLang.Token.Lexer

/-!
# Listings of tokens

The tokens of a file for people, as JSON and as YAML.
-/
namespace PineLang

/-- The tokens among lexemes, without the errors between them. -/
def tokensOf (ls : List Lexeme) : List Token :=
  ls.filterMap fun l => match l with
    | .token t => some t
    | .error _ _ => none

namespace Listing

/-- Fills a text up with spaces. -/
def padRight (width : Nat) (s : String) : String := s ++ "".pushn ' ' (width - s.length)

/-- Puts spaces before a text. -/
def padLeft (width : Nat) (s : String) : String := "".pushn ' ' (width - s.length) ++ s

/-- A position as `line:column`. -/
def position (p : LineCol) : String := toString p.line ++ ":" ++ toString p.col

/-- One line per token: its number, its kind, its text if it has any, and where it stands. -/
def line (f : SourceFile) (number : Nat) (t : Token) : String :=
  let (start, stop) := f.resolve t.span
  padLeft 3 (toString number) ++ ": " ++ padRight 15 t.kind.name ++
    (if t.text.isEmpty then "" else " " ++ Text.quoted t.text) ++
    " at " ++ position start ++ "-" ++ position stop ++ "\n"

/-- The tokens for people. -/
def pretty (f : SourceFile) (ts : List Token) : String :=
  String.join (ts.zipIdx.map fun (t, i) => line f (i + 1) t)

/-- The numbers listed for a token. -/
def places (f : SourceFile) (t : Token) : List (String × Nat) :=
  let start := (f.resolve t.span).1
  [("start", t.span.start), ("end", t.span.stop), ("line", start.line), ("col", start.col)]

/-- The tokens as JSON. -/
def json (f : SourceFile) (ts : List Token) : String :=
  (Text.Json.arr (ts.map fun t => .obj <|
    [("kind", Text.Json.str t.kind.name)] ++ (if t.text.isEmpty then [] else [("text", Text.Json.str t.text)]) ++
      (places f t).map fun (k, n) => (k, Text.Json.num n))).text

/-- The tokens as YAML. -/
def yaml (f : SourceFile) (ts : List Token) : String :=
  String.join (ts.map fun t =>
    "- kind: " ++ Text.Yaml.scalar 4 t.kind.name ++
      (if t.text.isEmpty then "" else "  text: " ++ Text.Yaml.scalar 4 t.text) ++
      String.join ((places f t).map fun (k, n) => "  " ++ k ++ ": " ++ toString n ++ "\n"))

end Listing

end PineLang
