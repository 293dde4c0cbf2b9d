import PineLang.Build.Compiler
import PineLang.Text.Space
import PineLang.Unix.Run

/-!
# Toolchains

What a build asks of a C compiler: whether it is there, and to compile files. The answers of the
compilers that are programs come from running them.
-/
namespace PineLang

/-- A C compiler as a build sees it. Each answer has the disk that is left, and a message if it
    failed. -/
structure Toolchain where
  probe : Disk → Disk × Option Bytes
  compile : Disk → CompilerCall → Disk × Option Bytes

/-- Why a program cannot be started: no directory of programs has it, or its path does not serve. -/
inductive StartFault where
  | notFound (name : String)
  | path (path : String) (cause : DiskCause)
  deriving DecidableEq, Repr

/-- What is said about a program that cannot be started. -/
def StartFault.message : StartFault → String
  | notFound name => "exec: " ++ Text.quoted name ++ ": executable file not found in $PATH"
  | path p cause => DiskFault.message ⟨"fork/exec", p, cause⟩

/-- Starts a program and lets it end. A path without a slash is a name that is looked for in the
    directories of programs, and no argument may hold a zero character. -/
def startProgram (d : Disk) (search : List String) (path : String) (args : List String) :
    Except StartFault Shell.Outcome :=
  match if path.contains '/' then some path else Shell.locate d search path with
  | none => .error (.notFound path)
  | some found =>
    if args.any (·.contains '\x00') then .error (.path found .invalid)
    else match Shell.execute d search found args with
      | .ok o => .ok o
      | .error cause => .error (.path found cause)

namespace CCompiler

/-- Runs a compiler with arguments: the disk that is left, what it complained of, and a message if
    it failed. -/
def runWith (c : CCompiler) (search : List String) (d : Disk) (args : List String) :
    Disk × Bytes × Option String :=
  match startProgram d search c.name args with
  | .error f => (d, [], some f.message)
  | .ok o =>
    (o.disk, Text.trimSpaceBytes o.err, if o.status.isSuccess then none else some o.status.text)

/-- The toolchain of a compiler that is found in these directories. -/
def toolchain (c : CCompiler) (search : List String) : Toolchain where
  probe d :=
    let (d, _, failure) := c.runWith search d ["-v"]
    (d, failure.map fun m => utf8 (c.name ++ " is not available: " ++ m))
  compile d call :=
    let (d, complaint, failure) := c.runWith search d (c.args call)
    (d, failure.map fun m => utf8 (c.name ++ ": ") ++ if complaint.isEmpty then utf8 m else complaint)

end CCompiler

end PineLang
