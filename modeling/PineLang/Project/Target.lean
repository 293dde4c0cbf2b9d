import PineLang.Project.Manifest

/-!
# Targets

What a build works on: a source file that was named, or the project that a directory belongs to.
-/
namespace PineLang

/-- The extension of source files. -/
def sourceExt : String := ".pn"

/-- The directory that a build writes to unless something else is asked for. -/
def defaultBuildDir : String := ".build"

/-- A manifest and where it was found. -/
structure Manifest where
  path : String
  root : String
  config : Config
  deriving DecidableEq, Repr, Inhabited

/-- What a build works on. -/
structure Target where
  source : String
  buildDir : String := defaultBuildDir
  output : String := ""
  compiler : String := ""
  opt : OptLevel := .debug
  manifest : Option Manifest := none
  deriving DecidableEq, Repr, Inhabited

/-- Why there is nothing to build. -/
inductive TargetFault where
  | missing (path : String)
  | unreachable (path : String) (fault : DiskFault)
  | notSource (path : String)
  | noManifest
  | manifest (path : String) (fault : ManifestFault)
  | mainMissing (manifest path : String)
  | mainUnreachable (manifest : String) (fault : DiskFault)
  | mainNotSource (manifest : String)
  deriving DecidableEq, Repr

/-- What is said about a fault. -/
def TargetFault.message : TargetFault → String
  | missing path => path ++ ": no such file or directory"
  | unreachable path f => "failed to stat " ++ Text.quoted path ++ ": " ++ f.message
  | notSource path => path ++ ": expected a .pn source file"
  | noManifest =>
    "no pine.toml found\nplease specify the source file explicitly, e.g.:\n  pinec build path/to/main.pn"
  | manifest path f => f.message path
  | mainMissing m path => m ++ ": [package].main does not exist: " ++ path
  | mainUnreachable m f => m ++ ": failed to stat [package].main: " ++ f.message
  | mainNotSource m => m ++ ": [package].main must be a .pn file"

namespace Manifest

/-- The paths of manifests in a directory and above it, nearest first. -/
def candidates (dir : String) : List String :=
  let parts := Path.cleaned dir
  (List.range (parts.length + 1)).map fun n =>
    Path.join ["/" ++ "/".intercalate (parts.take (parts.length - n)), manifestName]

/-- The first manifest among paths. A path that cannot be looked at stops the search. -/
def firstOf (d : Disk) : List String → Except TargetFault (Option String)
  | [] => .ok none
  | path :: rest =>
    match d.stat path with
    | .ok _ => .ok (some path)
    | .error ⟨_, _, .missing⟩ => firstOf d rest
    | .error f => .error (.unreachable path f)

/-- The manifest that a directory belongs to. -/
def load (d : Disk) (dir : String) : Except TargetFault (Option Manifest) := do
  let here := "/" ++ "/".intercalate d.cwd
  match ← firstOf d (candidates (Path.absolute here dir)) with
  | none => .ok none
  | some path =>
    match Config.load d path with
    | .ok config => .ok (some ⟨path, Path.dir path, config⟩)
    | .error f => .error (.manifest path f)

/-- The path of the main source. -/
def mainPath (m : Manifest) (d : Disk) : Except TargetFault String :=
  let path := Path.join [m.root, Text.trimSpace m.config.main]
  match d.stat path with
  | .error ⟨_, _, .missing⟩ => .error (.mainMissing m.path path)
  | .error f => .error (.mainUnreachable m.path f)
  | .ok e => if e.isDir || Path.ext path != sourceExt then .error (.mainNotSource m.path) else .ok path

/-- The directory that the project is built in. -/
def buildDir (m : Manifest) : String :=
  let dir := Text.trimSpace m.config.dir
  let dir := if dir.isEmpty then defaultBuildDir else dir
  if Path.isAbs dir then dir else Path.join [m.root, dir]

/-- What a build of the project works on. -/
def target (m : Manifest) (d : Disk) : Except TargetFault Target := do
  let source ← m.mainPath d
  let output := Text.trimSpace m.config.output
  return {
    source
    buildDir := m.buildDir
    output := if output.isEmpty then Text.trimSpace m.config.name else output
    compiler := Text.trimSpace m.config.compiler
    opt := (OptLevel.ofText? m.config.opt).getD .debug
    manifest := some m }

end Manifest

/-- What a build of a path works on: the path itself if it is a source, and the project it belongs
    to if it is a directory. -/
def Target.resolve (d : Disk) (path : String) : Except TargetFault Target :=
  let path := if path.isEmpty then "." else path
  match d.stat path with
  | .error ⟨_, _, .missing⟩ => .error (.missing path)
  | .error f => .error (.unreachable path f)
  | .ok (.file _ _) => if Path.ext path == sourceExt then .ok { source := path } else .error (.notSource path)
  | .ok .dir => do
    match ← Manifest.load d path with
    | none => .error .noManifest
    | some m => m.target d

end PineLang
