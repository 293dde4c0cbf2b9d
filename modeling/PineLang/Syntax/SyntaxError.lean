import PineLang.Token.Lexer

/-!
# Syntax errors

The first error ends a parse. A lexeme that is no token is reported by the lexer, so the parse
then only passes its error on.
-/
namespace PineLang

/-- Why a parse stopped. -/
inductive SyntaxFault where
  /-- The lexeme at which the parse stopped is no token. -/
  | lexical (e : LexError)
  | unexpectedEnd (span : Span) (expected : List String)
  | unexpectedToken (found : Token) (expected : List String)
  | expectedType (found : Token)
  | invalidTarget (span : Span)
  /-- The parse was told to stop before an item. -/
  | cancelled
  /-- The bound on the steps was reached. -/
  | exhausted
  deriving DecidableEq, Repr

/-- A fault, and the lexemes that were left when it was found. -/
structure SyntaxError where
  fault : SyntaxFault
  rest : List Lexeme
  deriving DecidableEq, Repr

namespace SyntaxFault

/-- The diagnostic code of a fault. -/
def code : SyntaxFault → Code
  | lexical e => e.code
  | unexpectedEnd _ _ => .unexpectedEnd
  | unexpectedToken _ _ => .unrecognizedToken
  | expectedType _ => .expectedType
  | invalidTarget _ => .invalidTarget
  | cancelled | exhausted => ⟨0⟩

/-- Where the fault is. -/
def span : SyntaxFault → Span
  | lexical e => e.span
  | unexpectedEnd s _ => s
  | unexpectedToken t _ => t.span
  | expectedType t => t.span
  | invalidTarget s => s
  | cancelled | exhausted => {}

/-- How a message mentions the token found. -/
def found : SyntaxFault → String
  | unexpectedToken t _ => t.describe
  | expectedType t => t.describe
  | _ => ""

/-- What would have been accepted. -/
def expected : SyntaxFault → List String
  | unexpectedEnd _ es => es
  | unexpectedToken _ es => es
  | _ => []

/-- What a message says about the fault. -/
def message : SyntaxFault → String
  | lexical e => e.fault.message
  | unexpectedEnd _ _ => "unexpected end of file"
  | unexpectedToken t _ => "unrecognized token " ++ t.describe
  | expectedType _ => "expected type"
  | invalidTarget _ => "invalid assignment target"
  | cancelled => "context canceled"
  | exhausted => "unknown error"

/-- The fault on one line, with its place. -/
def text (f : SyntaxFault) : String := f.code.id ++ " at " ++ f.span.text ++ ": " ++ f.message

/-- The lexer has reported the fault already. -/
def isLexical : SyntaxFault → Bool
  | lexical _ => true
  | _ => false

/-- Descriptive words stand as they are, tokens between backquotes. -/
def quoteExpected (s : String) : String :=
  if ["identifier", "newline", "indent", "dedent", "expression", "type"].contains s then s
  else "`" ++ s ++ "`"

/-- `X`, `X or Y`, or `X, Y, or Z`. -/
def joinExpected (es : List String) : String :=
  match es.map quoteExpected with
  | [] => ""
  | [x] => x
  | [x, y] => x ++ " or " ++ y
  | xs => ", ".intercalate xs.dropLast ++ ", or " ++ xs.getLastD ""

/-- The fault as a diagnostic. -/
def diagnostic (f : SyntaxFault) : Diagnostic :=
  match f with
  | lexical e => e.diagnostic
  | _ =>
    let expectation := if f.expected.isEmpty then []
      else [⟨f.span, "expected: " ++ joinExpected f.expected⟩]
    let finding := match f with
      | expectedType t => [⟨f.span, "found: " ++ t.describe⟩]
      | _ => []
    .ofError f.code f.span f.message (expectation ++ finding)

end SyntaxFault
end PineLang
