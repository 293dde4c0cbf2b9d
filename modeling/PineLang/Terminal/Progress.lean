import PineLang.Number.Double
import PineLang.Unicode.Width

/-!
# The progress view

A view of a build with a row per stage: what the stage is doing and how long it took. Below the rows
stand the message of a failure and a bar.
-/
namespace PineLang

namespace Progress

/-- A row of the view. -/
structure Row where
  stage : String
  status : String := "queued"
  elapsed : String := ""
  deriving DecidableEq, Repr

/-- What happened to a stage. Stages and statuses are told by name. -/
structure Event where
  stage : String
  status : String
  elapsedMicros : Nat := 0
  message : String := ""
  deriving DecidableEq, Repr

/-- What a stage at work is doing. -/
def activity : String → String
  | "parse" => "parsing"
  | "check" => "checking"
  | "lower" => "lowering"
  | "emit" => "emitting"
  | "runtime" => "unpacking"
  | "compile" => "compiling"
  | "run" => "running"
  | _ => "working"

/-- What a row shows for a status. -/
def label (stage status : String) : String :=
  match status with
  | "working" => activity stage
  | "" => "queued"
  | s => s

/-- Cuts a text to a number of cells, with dots where there is room for them. No number of cells is
    no limit. -/
def shorten (cells : Int) (s : String) : String :=
  if cells ≤ 0 then s
  else if cells ≤ 3 then Text.truncate cells.toNat "" s
  else Text.truncate cells.toNat "..." s

/-- A text as a block: tabs are four spaces, and all lines are as wide as the widest. -/
def block (s : String) : String :=
  let s := (s.replace "\t" "    ").replace "\r\n" "\n"
  match s.splitOn "\n" with
  | [line] => line
  | lines =>
    let width (l : String) := Text.textWidth l.toList
    let widest := (lines.map width).foldl max 0
    "\n".intercalate (lines.map fun l => l ++ "".pushn ' ' (widest - width l))

/-- A bar of a number of cells with its percentage. -/
def bar (width : Nat) (isFull : Bool) : String :=
  let cells := width - 5
  if isFull then "".pushn '█' cells ++ " 100%" else "".pushn '░' cells ++ "   0%"

end Progress

open Progress in
/-- The state of the view. -/
structure Progress where
  title : String
  rows : List Row
  width : Int := 80
  barWidth : Nat := 76
  failure : String := ""
  isDone : Bool := false
  deriving Repr

namespace Progress

/-- The view before the first event. -/
def ofStages (title : String) (stages : List String) : Progress :=
  { title, rows := stages.map fun s => { stage := s } }

/-- The terminal has a new width. -/
def resize (p : Progress) (width : Int) : Progress :=
  if width ≤ 0 then p else { p with width, barWidth := max (width - 4).toNat 10 }

/-- Replaces the last row of a stage. -/
def updateLast (stage : String) (f : Row → Row) (rows : List Row) : List Row :=
  match rows.reverse.findIdx? (·.stage == stage) with
  | none => rows
  | some i => (rows.reverse.modify i f).reverse

/-- Takes an event in. An event of a stage without a row is passed over. -/
def onEvent (p : Progress) (e : Event) : Progress :=
  if p.rows.any (·.stage == e.stage) then
    let update (r : Row) : Row :=
      { r with
        status := label e.stage e.status
        elapsed := if e.elapsedMicros = 0 then r.elapsed
          else Double.fixedRatio 2 e.elapsedMicros 1000 ++ "ms" }
    { p with
      rows := updateLast e.stage update p.rows
      failure := if e.status == "error" then e.message else p.failure }
  else p

/-- The build is over. -/
def finish (p : Progress) : Progress := { p with isDone := true }

/-- A row as a line. -/
def Row.line (r : Row) : String :=
  let pad (width : Nat) (s : String) := "".pushn ' ' (width - s.length)
  let text := "  " ++ block (pad 12 r.status ++ r.status) ++ " " ++ r.stage ++ pad 8 r.stage ++ " " ++
    r.elapsed
  String.ofList (text.toList.reverse.dropWhile (· == ' ')).reverse ++ "\n"

/-- The whole view. -/
def view (p : Progress) : String :=
  let title := shorten (p.width - 4) p.title
  let header := if p.isDone then "done: " ++ title else "⣾  " ++ title
  block header ++ "\n\n" ++ String.join (p.rows.map Row.line) ++
    (if p.failure.isEmpty then ""
      else "\n" ++ block (shorten (p.width - 2) p.failure) ++ "\n") ++
    "\n" ++ bar p.barWidth (p.isDone && p.failure.isEmpty) ++ "\n"

end Progress

end PineLang
