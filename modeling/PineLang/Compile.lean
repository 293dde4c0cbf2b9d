import PineLang.C.Printer
import PineLang.Check.Rules
import PineLang.Diag.Bag
import PineLang.Lower
import PineLang.Source.File
import PineLang.Syntax.Parser

/-!
# Compilation

One source becomes a header and a source of C, and for a program also the entry file. Compilation
goes through parsing, checking, lowering and printing, and stops at the first stage that fails.
-/
namespace PineLang

/-! ## Parsing with a bag -/

/-- What parsing a file gives: its tree, if there were no errors, and its diagnostics. -/
structure Parsed where
  tree : Option File
  bag : Bag
  cancelled : Bool := false
  deriving Inhabited

/-- A complete tree without errors. -/
def Parsed.ok? (p : Parsed) : Option File := if p.bag.hasErrors then none else p.tree

/-- Parses a file. Repeated reports are dropped, and the others kept up to the limit. -/
def SourceFile.parse (f : SourceFile) (limit : Nat) (cancelled : Bool := false) : Parsed :=
  let ls := lexemes f.id f.content
  let r := PineLang.parse ls cancelled
  let bag := Bag.ofList limit (uniqueReports (parseReports ls r))
  match r with
  | .ok tree => ⟨some tree, bag, false⟩
  | .error e => ⟨none, bag, e.fault == .cancelled⟩

/-! ## Stages -/

/-- The generated files of a unit; the entry file is there only for a program. -/
structure Generated where
  unit : String
  header : Bytes
  source : Bytes
  entry : Option Bytes
  deriving DecidableEq, Repr, Inhabited

/-- The files by name. A later file of the same name replaces an earlier one. -/
def Generated.files (g : Generated) : List (String × Bytes) :=
  let entry := g.entry.toList.map fun text => (C.entryName ++ ".c", text)
  let own := [(g.unit ++ ".h", g.header), (g.unit ++ ".c", g.source)]
  own.filter (fun f => !(entry.any fun e => e.1 == f.1)) ++ entry

/-- The name of the unit of a source path. -/
def unitName (path : String) : String := Path.stem path

/-- Splits a unit and prints it, with an entry file for a program. -/
def emit (u : C.CUnit) (isProgram : Bool) : Generated where
  unit := u.name
  header := u.header.text
  source := u.source.text
  entry := if isProgram then some (C.entryUnit u.name).text else none

/-- Why a compilation stopped. -/
inductive CompileError where
  | parse (path : String)
  | check (path : String) (summary : String)
  | lower (path : String) (fault : LowerFault)
  | cancelled
  deriving DecidableEq, Repr

/-- What is said about an error. -/
def CompileError.message : CompileError → String
  | parse path => path ++ ": parse: compilation failed"
  | check path summary => path ++ ": check: compilation failed: " ++ summary
  | lower path fault => path ++ ": lower: " ++ fault.message
  | cancelled => "context canceled"

/-- How a compilation ended, with all its diagnostics. -/
structure Compiled where
  bag : Bag
  outcome : Except CompileError Generated
  deriving Inhabited

/-- How to compile. -/
structure CompileOptions where
  limit : Nat := 0
  isProgram : Bool := false
  cancelled : Bool := false

/-- Compiles a file under the path it was asked for. -/
def SourceFile.compile (f : SourceFile) (path : String) (o : CompileOptions) : Compiled :=
  let parsed := f.parse o.limit o.cancelled
  if parsed.cancelled then ⟨parsed.bag, .error .cancelled⟩
  else match parsed.ok? with
    | none => ⟨parsed.bag, .error (.parse path)⟩
    | some tree =>
      let checked := tree.check o.isProgram
      let bag := parsed.bag.addAll checked.found
      match checked.error? with
      | some summary => ⟨bag, .error (.check path summary)⟩
      | none =>
        match tree.lower (unitName path) with
        | .error fault => ⟨bag, .error (.lower path fault)⟩
        | .ok u => ⟨bag, .ok (emit u o.isProgram)⟩

end PineLang
