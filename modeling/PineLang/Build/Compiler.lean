import PineLang.Source.Path
import PineLang.Text.Quoted

/-!
# C compilers

The compilers that can build the generated files, and their arguments.
-/
namespace PineLang

/-- How much a build is optimized. -/
inductive OptLevel where
  | debug | release | unsafeRelease
  deriving DecidableEq, Repr, Inhabited

namespace OptLevel

/-- The argument for a level. -/
def flag : OptLevel → String
  | debug => "-g"
  | release => "-O3"
  | unsafeRelease => "-Ofast"

/-- The name of a level. -/
def text : OptLevel → String
  | debug => "debug"
  | release => "release"
  | unsafeRelease => "unsafe-release"

/-- The level of a name; no name is the debug level. -/
def ofText? : String → Option OptLevel
  | "" | "debug" => some debug
  | "release" => some release
  | "unsafe-release" => some unsafeRelease
  | _ => none

/-- What is said about a name of no level. -/
def fault (s : String) : String :=
  "unknown optimization level " ++ Text.quoted s ++ " (expected debug, release or unsafe-release)"

/-- The level of a number; other numbers are the debug level. -/
def ofNumber : Nat → OptLevel
  | 1 => release
  | 2 => unsafeRelease
  | _ => debug

end OptLevel

/-- A C compiler. -/
inductive CCompiler where
  | gcc | clang
  deriving DecidableEq, Repr, Inhabited

/-- One call of a compiler. -/
structure CompilerCall where
  outputDir : String
  outputName : String
  files : List String
  opt : OptLevel
  deriving DecidableEq, Repr

/-- Where the executable goes. -/
def CompilerCall.outputPath (c : CompilerCall) : String := Path.join [c.outputDir, c.outputName]

namespace CCompiler

/-- The command that starts a compiler. -/
def name : CCompiler → String
  | gcc => "gcc"
  | clang => "clang"

/-- The compiler of a name; no name is the first one. -/
def ofName? : String → Option CCompiler
  | "" | "gcc" => some gcc
  | "clang" => some clang
  | _ => none

/-- What is said about a name of no compiler. -/
def fault (s : String) : String :=
  "unknown C compiler: " ++ Text.quoted s ++ " (supported: gcc, clang)"

/-- Arguments beyond the output and the files. -/
def strictness : CCompiler → List String
  | gcc => ["-std=c99", "-Werror"]
  | clang => []

/-- The arguments of a call. -/
def args (c : CCompiler) (call : CompilerCall) : List String :=
  ["-o", call.outputPath] ++ c.strictness ++ call.files ++ [call.opt.flag]

end CCompiler

end PineLang
