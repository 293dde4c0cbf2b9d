import PineLang.Text.Quoted

/-!
# Diagnostic codes and severities

A code is a number: the thousands give the stage that reports it, the rest its number there.
-/
namespace PineLang

/-- `n` in decimal, with at least `width` digits. -/
def decimalPadded (width n : Nat) : String :=
  let digits := toString n
  String.ofList (List.replicate (width - digits.length) '0') ++ digits

/-- A diagnostic code. -/
structure Code where
  number : Nat
  deriving DecidableEq, Repr, Inhabited

namespace Code

def unexpectedInput : Code := ⟨1000⟩
def unterminatedString : Code := ⟨1001⟩
def unevenIndent : Code := ⟨1002⟩
def badEscape : Code := ⟨1003⟩
def integerOverflow : Code := ⟨1004⟩
def badNumber : Code := ⟨1005⟩

def unexpectedEnd : Code := ⟨2001⟩
def unrecognizedToken : Code := ⟨2002⟩
def expectedType : Code := ⟨2003⟩
def invalidTarget : Code := ⟨2004⟩

def unknownStruct : Code := ⟨3001⟩
def unknownField : Code := ⟨3002⟩
def missingField : Code := ⟨3003⟩
def duplicateField : Code := ⟨3004⟩
def literalPosition : Code := ⟨3005⟩
def literalType : Code := ⟨3006⟩
def duplicateDeclaration : Code := ⟨3007⟩
def missingMain : Code := ⟨3008⟩
def temporaryShadowing : Code := ⟨3009⟩
def mainSignature : Code := ⟨3010⟩
def reservedName : Code := ⟨3011⟩

/-- The stage that reports the code. -/
def stage (c : Code) : String :=
  match c.number / 1000 with
  | 1 => "LEX"
  | 2 => "SYN"
  | 3 => "SEM"
  | _ => "E"

/-- The stable identifier, such as `SYN::0002`. -/
def id (c : Code) : String := c.stage ++ "::" ++ decimalPadded 4 (c.number % 1000)

/-- What the code stands for; an unlisted code is an unknown error. -/
def title (c : Code) : String :=
  match c.number with
  | 1000 => "unexpected input"
  | 1001 => "unterminated string"
  | 1002 => "indentation is not a multiple of four"
  | 1003 => "unknown escape sequence"
  | 1004 => "integer literal overflows u64"
  | 1005 => "malformed number literal"
  | 2001 => "unrecognized EOF"
  | 2002 => "unrecognized token"
  | 2003 => "expected type"
  | 2004 => "invalid assignment target"
  | 3001 => "unknown struct"
  | 3002 => "unknown struct field"
  | 3003 => "missing struct field"
  | 3004 => "duplicate struct field"
  | 3005 => "struct literal outside of let initializer"
  | 3006 => "struct literal does not match declared type"
  | 3007 => "duplicate top-level declaration"
  | 3008 => "missing main function"
  | 3009 => "struct literal field shadows a name used by the initializer"
  | 3010 => "main must not take parameters"
  | 3011 => "name is reserved by C or the runtime"
  | _ => "unknown error"

/-- The identifier in brackets, then the title. -/
def text (c : Code) : String := "[" ++ c.id ++ "]: " ++ c.title

end Code

/-- How serious a diagnostic is; higher is worse. -/
structure Severity where
  level : Nat
  deriving DecidableEq, Repr, Inhabited

namespace Severity

def info : Severity := ⟨0⟩
def warning : Severity := ⟨1⟩
def error : Severity := ⟨2⟩

/-- The word for the severity. -/
def text (s : Severity) : String :=
  match s.level with
  | 0 => "info"
  | 1 => "warning"
  | 2 => "error"
  | _ => "unknown"

end Severity
end PineLang
