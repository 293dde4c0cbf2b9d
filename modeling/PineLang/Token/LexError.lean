import PineLang.Diag.Diagnostic

/-!
# Lexical errors
-/
namespace PineLang

/-- Why a piece of source is no token. -/
inductive LexFault where
  | unexpectedInput (char : Char)
  | unterminatedString
  | unevenIndent (width : Nat)
  | badEscape (char : Char)
  | integerOverflow (text : String)
  | badNumber (text : String)
  deriving DecidableEq, Repr

/-- A fault and where it is. -/
structure LexError where
  fault : LexFault
  span : Span
  deriving DecidableEq, Repr

namespace LexFault

/-- The diagnostic code of a fault. -/
def code : LexFault → Code
  | unexpectedInput _ => .unexpectedInput
  | unterminatedString => .unterminatedString
  | unevenIndent _ => .unevenIndent
  | badEscape _ => .badEscape
  | integerOverflow _ => .integerOverflow
  | badNumber _ => .badNumber

/-- What a message says about a fault. -/
def message : LexFault → String
  | unexpectedInput c => "unexpected character " ++ Text.quotedChar c
  | unterminatedString => Code.title .unterminatedString
  | unevenIndent w => "indentation of " ++ toString w ++ " columns is not a multiple of four"
  | badEscape c => "unknown escape sequence \\" ++ String.singleton c
  | integerOverflow t => "integer literal " ++ t ++ " does not fit into u64"
  | badNumber t => "malformed number " ++ t

/-- The spelling of a number that does not fit; empty for other faults. -/
def numberText : LexFault → String
  | integerOverflow t | badNumber t => t
  | _ => ""

end LexFault

namespace LexError

/-- The diagnostic code of the error. -/
def code (e : LexError) : Code := e.fault.code

/-- The error on one line, with its place. -/
def text (e : LexError) : String :=
  e.code.id ++ " at " ++ e.span.text ++ ": " ++ e.fault.message

/-- The error as a diagnostic; an uneven indent comes with advice. -/
def diagnostic (e : LexError) : Diagnostic :=
  .ofError e.code e.span e.fault.message <|
    match e.fault with
    | .unevenIndent _ => [⟨e.span, "indent blocks with 4 spaces per level"⟩]
    | _ => []

end LexError
end PineLang
