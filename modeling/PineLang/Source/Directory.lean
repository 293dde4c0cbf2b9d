import PineLang.Compile
import PineLang.Project.Target
import PineLang.Source.Library
import PineLang.Syntax.Walk

/-!
# Directories of sources

All source files below a directory, parsed one by one.
-/
namespace PineLang

/-- Why a source could not be loaded. -/
structure LoadFault where
  path : String
  fault : LibraryFault
  deriving DecidableEq, Repr

/-- What is said about a fault. -/
def LoadFault.message (f : LoadFault) : String := "failed to load " ++ f.path ++ ": " ++ f.fault.message

/-- Opens a path and reads its file. -/
def Library.loadFile (l : Library) (d : Disk) (path : String) :
    Except LoadFault SourceFile × Library :=
  match l.openPath d.read path with
  | (.error f, l) => (.error ⟨path, f⟩, l)
  | (.ok id, l) =>
    let (f, l) := l.fetch d.read id
    (f.mapError (⟨path, ·⟩), l)

/-- Loads files one after the other. -/
def Library.loadFiles (l : Library) (d : Disk) :
    List String → Except LoadFault (List SourceFile) × Library
  | [] => (.ok [], l)
  | path :: rest =>
    match l.loadFile d path with
    | (.error f, l) => (.error f, l)
    | (.ok f, l) =>
      let (fs, l) := loadFiles l d rest
      (fs.map (f :: ·), l)

/-- The paths of the source files below a path, in order. -/
def sourcesBelow (d : Disk) (path : String) : Except DiskFault (List String) :=
  match d.find path with
  | .error c => .error ⟨"lstat", path, c⟩
  | .ok (_, .file _ _) => .ok (if path.endsWith sourceExt then [path] else [])
  | .ok (loc, .dir) =>
    let paths := (d.filesBelow loc).map fun f => Path.join (path :: f.1)
    .ok ((paths.filter (·.endsWith sourceExt)).mergeSort fun a b => a ≤ b)

/-- Why a directory could not be parsed. -/
inductive DirectoryFault where
  | disk (fault : DiskFault)
  | load (fault : LoadFault)
  | cancelled
  deriving DecidableEq, Repr

/-- What is said about a fault. -/
def DirectoryFault.message : DirectoryFault → String
  | disk f => f.message
  | load f => f.message
  | cancelled => "context canceled"

/-- What parsing one of the files gave. -/
structure DirectoryEntry where
  path : String
  file : SourceFile
  parsed : Parsed

/-- What is wrong with the spans of a complete tree. -/
def DirectoryEntry.spanFault? (e : DirectoryEntry) : Option String :=
  e.parsed.ok?.bind fun t => (t.spanFault e.file.id e.file.content.length).getD none

/-- Parses every source file below a directory. -/
def Library.parseDirectory (l : Library) (d : Disk) (dir : String) (limit : Nat)
    (cancelled : Bool := false) : Except DirectoryFault (List DirectoryEntry) × Library :=
  match sourcesBelow d dir with
  | .error f => (.error (.disk f), l)
  | .ok paths =>
    match l.loadFiles d paths with
    | (.error f, l) => (.error (.load f), l)
    | (.ok files, l) =>
      if cancelled && !files.isEmpty then (.error .cancelled, l)
      else (.ok ((paths.zip files).map fun (path, f) => ⟨path, f, f.parse limit⟩), l)

end PineLang
