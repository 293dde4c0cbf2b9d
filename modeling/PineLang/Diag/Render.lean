import PineLang.Diag.Diagnostic
import PineLang.Source.File
import PineLang.Text.Colour
import PineLang.Text.Json
import PineLang.Text.Space
import PineLang.Unicode.Width

/-!
# Rendered diagnostics

A diagnostic for people has a line with its place, its code and its message, then the source line
with a marker under the span, and its notes. For programs there is a JSON document.
-/
namespace PineLang.Render

/-- How a path is shown. -/
inductive PathMode where
  | asGiven | absolute | relative | baseName
  deriving DecidableEq, Repr

/-- The mode with a number; a number without a mode shows paths as given. -/
def PathMode.ofNumber : Nat → PathMode
  | 1 => absolute
  | 2 => relative
  | 3 => baseName
  | _ => asGiven

/-- How diagnostics are rendered. Paths are made relative to `baseDir`, or to the working
    directory. -/
structure Options where
  color : Bool := false
  pathMode : PathMode := .asGiven
  baseDir : String := ""
  showNotes : Bool := true
  workDir : String := "/"

/-- Why rendering stopped. -/
inductive Fault where
  | unknownFile (id : Nat)
  | noLine (line : Nat) (path : String)
  /-- The program stops. -/
  | crash (place : Crash)
  deriving DecidableEq, Repr

/-- What is said about a fault. -/
def Fault.message : Fault → String
  | unknownFile id => "unknown source file: id " ++ toString id
  | noLine line path => "line " ++ toString line ++ " out of range in " ++ path
  | crash _ => ""

/-- The bytes between two offsets, which must be offsets of the text, in order. -/
def cut (text : Bytes) (start stop : Nat) : Except Fault Bytes :=
  if start ≤ stop ∧ stop ≤ text.length then .ok ((text.take stop).drop start) else .error (.crash .index)

/-- The files a span can be in. -/
abbrev Files := Nat → Option SourceFile

/-- A path in the form that the options ask for. -/
def pathText (o : Options) (path : String) : String :=
  match o.pathMode with
  | .asGiven => path
  | .absolute => Path.absolute o.workDir path
  | .relative =>
    let origin := if o.baseDir.isEmpty then o.workDir else o.baseDir
    (Path.relative? origin (Path.absolute o.workDir path)).getD path
  | .baseName => Path.base path

/-- A place that can be printed, and the source line it is on. -/
structure Location where
  path : String
  line : Nat
  col : Nat
  lineStart : Nat
  lineStop : Nat
  lineText : Bytes

/-- `path:line:col`. -/
def Location.text (l : Location) : String :=
  l.path ++ ":" ++ toString l.line ++ ":" ++ toString l.col

/-- The place at which a span starts. -/
def locate (files : Files) (o : Options) (s : Span) : Except Fault Location :=
  match files s.file with
  | none => .error (.unknownFile s.file)
  | some f =>
    let line := f.lineOf s.start
    match f.lineRange line with
    | .error place => .error (.crash place)
    | .ok none => .error (.noLine line f.path)
    | .ok (some (start, stop)) =>
      (cut f.content start stop).map fun text =>
        ⟨pathText o f.path, (line + 1) % 0x100000000, (wrapSub s.start start + 1) % 0x100000000, start, stop, text⟩

/-! ## Colours -/

/-- The colour of a severity. -/
def severityColour (s : Severity) : Text.Colour :=
  match s.level with
  | 2 => .red
  | 1 => .yellow
  | _ => .cyan

/-! ## Text -/

/-- What stands below a character of the source line. -/
def padChar (c : Char) : String := if c == '\t' then "\t" else "".pushn ' ' (Text.charWidth c)

/-- The source line and the marker under the span. A blank line is left out where the span is
    empty. -/
def snippet (o : Options) (l : Location) (s : Span) : Except Fault Bytes :=
  if Text.isBlankText l.lineText && s.isEmpty then .ok []
  else
    let start := min (wrapSub s.start l.lineStart) l.lineText.length
    let stop := max (wrapSub (min s.stop l.lineStop) l.lineStart) start
    do
      let before ← cut l.lineText 0 start
      let marked ← cut l.lineText start stop
      let pad := String.join ((Text.chars before).map padChar)
      let width := max (Text.textWidth (Text.chars marked)) 1
      let marker := "^".pushn '~' (width - 1)
      return utf8 "    " ++ l.lineText ++ utf8 ("\n    " ++ pad ++ Text.boldIn o.color .green marker ++ "\n")

/-- The first line of a diagnostic. -/
def headline (o : Options) (l : Location) (d : Diagnostic) : String :=
  let tag := d.severity.text ++ "[" ++ d.code.id ++ "]"
  Text.bold o.color l.text ++ ": " ++ Text.boldIn o.color (severityColour d.severity) tag ++ ": " ++ d.message ++
    "\n"

/-- The line of a note. -/
def noteLine (o : Options) (l : Location) (n : Note) : String :=
  "  " ++ Text.boldIn o.color .blue "note:" ++ " " ++ l.text ++ ": " ++ n.message ++ "\n"

/-- Text written so far, and the fault that stopped the writing, if one did. -/
structure Output where
  text : Bytes
  fault : Option Fault := none

/-- Goes on with more output, unless writing has stopped. -/
def Output.andThen (first : Output) (more : Unit → Output) : Output :=
  match first.fault with
  | some _ => first
  | none =>
    let next := more ()
    ⟨first.text ++ next.text, next.fault⟩

/-- Output that may fail before anything is written. -/
def Output.ofExcept : Except Fault Bytes → Output
  | .ok text => ⟨text, none⟩
  | .error f => ⟨[], some f⟩

/-- The notes of a diagnostic. -/
def notes (files : Files) (o : Options) : List Note → Output
  | [] => ⟨[], none⟩
  | n :: rest =>
    (Output.ofExcept ((locate files o n.span).map fun l => utf8 (noteLine o l n))).andThen
      fun _ => notes files o rest

/-- One diagnostic. -/
def diagnostic (files : Files) (o : Options) (d : Diagnostic) : Output :=
  match locate files o d.span with
  | .error f => ⟨[], some f⟩
  | .ok l =>
    (Output.mk (utf8 (headline o l d)) none).andThen fun _ =>
      (Output.ofExcept (snippet o l d.span)).andThen fun _ =>
        if o.showNotes then notes files o d.notes else ⟨[], none⟩

/-- Diagnostics for people. -/
def pretty (files : Files) (o : Options) : List Diagnostic → Output
  | [] => ⟨[], none⟩
  | d :: rest => (diagnostic files o d).andThen fun _ => pretty files o rest

/-! ## JSON -/

open Text (Json)

/-- The place of a span as JSON. -/
def Location.json (l : Location) (s : Span) : Json :=
  .obj [("file", .str l.path), ("start_byte", .num s.start), ("end_byte", .num s.stop),
    ("line", .num l.line), ("col", .num l.col)]

/-- A note at a place as JSON. -/
def noteEntry (n : Note) (l : Location) : Json :=
  .obj [("message", .str n.message), ("location", l.json n.span)]

/-- A diagnostic at a place as JSON; it lists its notes only if it has some. -/
def entry (d : Diagnostic) (l : Location) (noted : List Json) : Json :=
  .obj ([("severity", .str d.severity.text), ("code", .str d.code.id),
    ("message", .str d.message), ("location", l.json d.span)] ++
    if noted.isEmpty then [] else [("notes", Json.arr noted)])

/-- A note as JSON. -/
def noteJson (files : Files) (o : Options) (n : Note) : Except Fault Json := do
  return noteEntry n (← locate files o n.span)

/-- A diagnostic as JSON. -/
def diagnosticJson (files : Files) (o : Options) (d : Diagnostic) : Except Fault Json := do
  let l ← locate files o d.span
  let noted ← d.notes.mapM (noteJson files o)
  return entry d l noted

/-- The diagnostics that a limit lets through; zero is no limit. -/
def shown (limit : Nat) (ds : List Diagnostic) : List Diagnostic := if limit == 0 then ds else ds.take limit

/-- Diagnostics for programs, as many as the limit lets through. The count is that of all of them. -/
def document (files : Files) (o : Options) (limit : Nat) (ds : List Diagnostic) : Except Fault Json := do
  let out ← (shown limit ds).mapM (diagnosticJson files o)
  return .obj [("diagnostics", .arr out), ("count", .num ds.length)]

/-- The document as text. -/
def json (files : Files) (o : Options) (limit : Nat) (ds : List Diagnostic) : Except Fault String :=
  (document files o limit ds).map (·.text)

end PineLang.Render
