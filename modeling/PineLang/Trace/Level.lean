import PineLang.Text.Quoted

/-!
# Trace levels

How much of a run is traced: failures only, or spans down to some scope. Scopes and kinds of events
are known by number; a number without a name is unknown.
-/
namespace PineLang.Trace

/-- How much is traced. -/
inductive Level where
  | off | error | phase | detail | debug
  deriving DecidableEq, Repr, Inhabited

/-- How coarse an event is; lower numbers are coarser. -/
structure Scope where
  number : Nat
  deriving DecidableEq, Repr, Inhabited

/-- The name of a scope. -/
def Scope.text (s : Scope) : String :=
  match s.number with
  | 1 => "driver"
  | 2 => "pass"
  | 3 => "unit"
  | 4 => "node"
  | _ => "unknown"

/-- One step of the compiler. -/
def Scope.pass : Scope := ⟨2⟩

/-- What an event tells. -/
structure Kind where
  number : Nat
  deriving DecidableEq, Repr, Inhabited

namespace Kind

/-- A span begins. -/
def spanBegin : Kind := ⟨1⟩

/-- A span ends. -/
def spanEnd : Kind := ⟨2⟩

/-- Something failed. -/
def failure : Kind := ⟨4⟩

/-- The name of a kind. -/
def text (k : Kind) : String :=
  match k.number with
  | 1 => "begin"
  | 2 => "end"
  | 3 => "point"
  | 4 => "error"
  | _ => "unknown"

end Kind

namespace Level

/-- The levels in order. -/
def all : List Level := [off, error, phase, detail, debug]

/-- The name of a level. -/
def text : Level → String
  | off => "off"
  | error => "error"
  | phase => "phase"
  | detail => "detail"
  | debug => "debug"

/-- The name of the level of a number. -/
def nameOf (number : Nat) : String := (all[number]?.map text).getD "unknown"

/-- A letter without its case; the long s counts as an s. -/
def foldCase (c : Char) : Char :=
  if c.toNat = 0x17F then 's' else if c.toNat = 0x212A then 'k' else c.toLower

/-- The level of a name in any case. -/
def ofText? (s : String) : Option Level := all.find? fun l => l.text.toList == s.toList.map foldCase

/-- What is said about a name of no level. -/
def fault (s : String) : String :=
  "invalid trace level: " ++ Text.quoted s ++ " (expected: off|error|phase|detail|debug)"

/-- Spans of a scope are traced. -/
def admits (l : Level) (s : Scope) : Bool :=
  match l with
  | phase => s.number ≤ 2
  | detail => s.number ≤ 3
  | debug => true
  | off | error => false

end Level

/-- How a trace is written. -/
inductive Format where
  | auto | text | json
  deriving DecidableEq, Repr, Inhabited

namespace Format

/-- The number of a format. -/
def number : Format → Nat
  | auto => 0
  | text => 1
  | json => 2

/-- The format of a name in any case; no name is `auto`. -/
def ofText? (s : String) : Option Format :=
  match s.toLower with
  | "" | "auto" => some auto
  | "text" => some text
  | "json" | "ndjson" => some json
  | _ => none

/-- What is said about a name of no format. -/
def fault (s : String) : String :=
  "invalid trace format: " ++ Text.quoted s ++ " (expected: auto|text|json)"

/-- The trace is written as JSON to this file. -/
def isJson (f : Format) (path : String) : Bool :=
  match f with
  | json => true
  | text => false
  | auto => path.endsWith ".json" || path.endsWith ".ndjson"

end Format

end PineLang.Trace
