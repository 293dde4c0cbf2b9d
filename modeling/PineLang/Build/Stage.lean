import PineLang.Number.Double

/-!
# Stages of a build

The stages that a build goes through, how far each of them is, and how long they took.
-/
namespace PineLang

/-- A stage of a build. -/
inductive Stage where
  | parse | check | lower | emit | runtime | compile | run
  deriving DecidableEq, Repr, Inhabited

namespace Stage

/-- The name of a stage. -/
def text : Stage → String
  | parse => "parse"
  | check => "check"
  | lower => "lower"
  | emit => "emit"
  | runtime => "runtime"
  | compile => "compile"
  | run => "run"

/-- The stages in the order they are gone through. -/
def all : List Stage := [parse, check, lower, emit, runtime, compile, run]

end Stage

/-- How far a stage is. -/
inductive Status where
  | working | done | cached | error
  deriving DecidableEq, Repr, Inhabited

/-- The word for a status. -/
def Status.text : Status → String
  | working => "working"
  | done => "done"
  | cached => "cached"
  | error => "error"

/-! ## Durations -/

/-- Nanoseconds as milliseconds with a fixed number of decimals, in eight columns. -/
def milliseconds (places nanos : Nat) : String :=
  let s := Double.fixedRatio places nanos 1000000
  "".pushn ' ' (8 - s.length) ++ s ++ " ms"

/-- Fills a text up with spaces. -/
def padTo (width : Nat) (s : String) : String := s ++ "".pushn ' ' (width - s.length)

/-- How many nanoseconds each stage took that was gone through. -/
abbrev Timings := List (Stage × Nat)

/-- A line for each stage, and their sum unless it is zero. -/
def Timings.text (t : Timings) : String :=
  let line (name : String) (nanos : Nat) := padTo 8 name ++ " " ++ milliseconds 1 nanos ++ "\n"
  let total := (t.map (·.2)).foldl (· + ·) 0
  String.join (Stage.all.map fun s => ((t.lookup s).map (line s.text)).getD "") ++
    if total = 0 then "" else line "total" total

/-! ## Phases -/

/-- A measured step, with a remark. -/
structure Phase where
  name : String
  nanos : Nat
  note : String := ""
  deriving DecidableEq, Repr

/-- A table of phases, with their sum. -/
def phaseSummary (ps : List Phase) : String :=
  let width := (ps.map fun p => p.name.utf8ByteSize).foldl max "total".length
  let row (name : String) (nanos : Nat) := "  " ++ padTo width name ++ " " ++ milliseconds 2 nanos
  "timings:\n" ++
    String.join (ps.map fun p =>
      row p.name p.nanos ++ (if p.note.isEmpty then "" else "  // " ++ p.note) ++ "\n") ++
    row "total" ((ps.map (·.nanos)).foldl (· + ·) 0) ++ "\n"

end PineLang
