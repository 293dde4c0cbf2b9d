import PineLang.Number.Double
import PineLang.Source.Span
import PineLang.Text.Quoted
import PineLang.Token.Kind

/-!
# Tokens
-/
namespace PineLang

/-- The number that a literal token stands for. -/
inductive Payload where
  | none
  | int (value : UInt64)
  | float (value : Double)
  deriving DecidableEq, Repr, Inhabited

/-- The value of an integer literal; zero for any other token. -/
def Payload.toInt : Payload → UInt64
  | .int v => v
  | _ => 0

/-- The value of a float literal; zero for any other token. -/
def Payload.toFloat : Payload → Double
  | .float v => v
  | _ => ⟨0⟩

/-- A token of the source: for a string literal the text is what it denotes, for a name its
    normal form, and otherwise its spelling. -/
structure Token where
  kind : Kind
  span : Span
  text : String := ""
  payload : Payload := .none
  deriving DecidableEq, Repr, Inhabited

/-- How a message mentions a token of this kind and text. -/
def Kind.describe (kind : Kind) (text : String) : String :=
  match kind with
  | .ident => "identifier `" ++ text ++ "`"
  | .intLit | .floatLit => "number `" ++ text ++ "`"
  | .stringLit => "string " ++ Text.quoted text
  | .eof | .newLine | .indent | .dedent | .invalid => kind.name
  | _ => "`" ++ kind.name ++ "`"

/-- How a message mentions the token. -/
def Token.describe (t : Token) : String := t.kind.describe t.text

end PineLang
