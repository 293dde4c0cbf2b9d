import PineLang.Diag.Code
import PineLang.Source.Span

/-!
# Diagnostics

A diagnostic is a message with a code, a severity, the span it is about, and notes.
-/
namespace PineLang

/-- A remark attached to a diagnostic. -/
structure Note where
  span : Span
  message : String
  deriving DecidableEq, Repr, Inhabited

/-- A finding about the source. -/
structure Diagnostic where
  severity : Severity
  code : Code
  message : String
  span : Span
  notes : List Note := []
  deriving DecidableEq, Repr, Inhabited

namespace Diagnostic

/-- The diagnostic as one line: its code and its message. -/
def text (d : Diagnostic) : String := d.code.id ++ ": " ++ d.message

/-- An error with its notes. -/
def ofError (code : Code) (span : Span) (message : String) (notes : List Note := []) :
    Diagnostic :=
  ⟨.error, code, message, span, notes⟩

end Diagnostic
end PineLang
