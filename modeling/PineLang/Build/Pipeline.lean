import PineLang.Build.Stage
import PineLang.Build.Toolchain
import PineLang.C.Companion
import PineLang.Cache.Store
import PineLang.Source.Directory
import PineLang.Syntax.Dump

/-!
# Builds

A build takes a source through all stages to an executable, and runs it if asked to. The files of
each stage are written into the build directory. It stops at the first stage that fails and tells
of every step in events.
-/
namespace PineLang

/-- What to build, and how. `launch` is what running the executable does, with its path and its
    arguments, and `library` may know files already. -/
structure BuildRequest where
  path : String
  buildDir : String := ""
  outputName : String := ""
  toolchain : Toolchain
  opt : OptLevel := .debug
  dumpsTree : Bool := false
  run : Bool := false
  runArgs : List String := []
  launch : Disk → String → List String → Except StartFault Shell.Outcome
  library : Library := Library.empty
  cache : Option Cache.Store := none
  limit : Nat := 0

namespace BuildRequest

/-- The build directory. -/
def dir (r : BuildRequest) : String := if r.buildDir.isEmpty then defaultBuildDir else r.buildDir

/-- The name of the executable. -/
def output (r : BuildRequest) : String := if r.outputName.isEmpty then "out" else r.outputName

/-- The directory of the executable. -/
def outDir (r : BuildRequest) : String := Path.join [r.dir, "out"]

/-- The path of the executable. -/
def outputPath (r : BuildRequest) : String := Path.join [r.dir, "out", r.output]

/-- The path of a file in the build directory. -/
def pathOf (r : BuildRequest) (name : String) : String := Path.join [r.dir, name]

/-- The call of the compiler. -/
def call (r : BuildRequest) : CompilerCall where
  outputDir := r.outDir
  outputName := r.output
  files := ([unitName r.path ++ ".c", "main.c"] ++
    (C.companions.map (·.1)).filter (·.endsWith ".c")).map r.pathOf
  opt := r.opt

end BuildRequest

/-- Why a build stopped. -/
inductive BuildError where
  | noSource
  | load (fault : LoadFault)
  | clean (fault : DiskFault)
  | create (fault : DiskFault)
  | compile (error : CompileError)
  | dump (fault : DiskFault)
  | write (name : String) (fault : DiskFault)
  | companion (fault : DiskFault)
  | tool (message : Bytes)
  | start (path : String) (fault : StartFault)
  deriving DecidableEq, Repr

namespace BuildError

/-- What is said about an error. -/
def message : BuildError → String
  | noSource => "missing source file"
  | load f => f.message
  | clean f => "failed to clean build dir: " ++ f.message
  | create f => "failed to create build dir: " ++ f.message
  | compile e => e.message
  | dump f => "failed to write AST dump: " ++ f.message
  | write name f => "failed to write " ++ name ++ ": " ++ f.message
  | companion f => "failed to extract embedded runtime sources: " ++ f.message
  | tool m => Text.lossy m
  | start path f => "failed to run " ++ path ++ ": " ++ f.message

/-- What is said about an error, with the complaints of a tool as it wrote them. -/
def bytes : BuildError → Bytes
  | tool m => m
  | e => utf8 e.message

/-- The diagnostics say all there is to say. -/
def isDiagnosed : BuildError → Bool
  | compile (.parse _) | compile (.check _ _) => true
  | _ => false

end BuildError

/-- An event of a build; a failure comes with its error. -/
structure BuildEvent where
  stage : Stage
  status : Status
  file : String
  failure : Option BuildError := none
  deriving DecidableEq, Repr

/-- A build as far as it has come. `probed` says whether the compiler was asked for, and `call` how
    it was called. -/
structure BuildState where
  disk : Disk
  library : Library
  events : List BuildEvent := []
  timed : List Stage := []
  generated : List String := []
  bag : Option Bag := none
  cached : Bool := false
  probed : Bool := false
  call : Option CompilerCall := none
  exit : Int := 0
  out : Bytes := []
  err : Bytes := []

/-- A step of a build. -/
abbrev BuildM := ExceptT BuildError (StateM BuildState)

namespace BuildM

/-- Goes on with the disk that an operation leaves. -/
def onDisk (fault : DiskFault → BuildError) (f : Disk → Except DiskFault Disk) : BuildM Unit := do
  match f (← get).disk with
  | .ok disk => modify fun s => { s with disk }
  | .error e => throw (fault e)

/-- Tells of a step. -/
def tell (stage : Stage) (status : Status) (file : String) (failure : Option BuildError := none) :
    BuildM Unit :=
  modify fun s => { s with events := s.events ++ [⟨stage, status, file, failure⟩] }

/-- Goes through a stage: tells that it begins, and how it ends. -/
def stage {α : Type} (r : BuildRequest) (st : Stage) (body : BuildM α) : BuildM α := do
  tell st .working r.path
  try
    let a ← body
    modify fun s => { s with timed := s.timed ++ [st] }
    tell st .done r.path
    return a
  catch e =>
    modify fun s => { s with timed := s.timed ++ [st] }
    tell st .error r.path (some e)
    throw e

/-- Writes a file into the build directory. -/
def writeFile (r : BuildRequest) (fault : DiskFault → BuildError) (name : String) (text : Bytes) :
    BuildM Unit := do
  onDisk fault fun d => d.write (r.pathOf name) text
  modify fun s => { s with generated := s.generated ++ [name] }

/-- Empties the build directory, if it is one that only builds write to, and makes it. -/
def prepare (r : BuildRequest) : BuildM Unit := do
  if Path.base (Path.clean r.dir) == defaultBuildDir then onDisk .clean fun d => d.removeAll r.dir
  onDisk .create fun d => d.makeDirs r.outDir

/-- Writes the generated files. -/
def writeOutput (r : BuildRequest) (g : Generated) : BuildM Unit :=
  g.files.forM fun (name, text) => writeFile r (.write name) name text

/-- Parses, checks, lowers and writes a source. -/
def frontend (r : BuildRequest) (f : SourceFile) : BuildM Unit := do
  let tree ← stage r .parse do
    let parsed := f.parse r.limit
    modify fun s => { s with bag := some parsed.bag }
    match parsed.ok? with
    | none => throw (.compile (.parse r.path))
    | some tree =>
      if r.dumpsTree then writeFile r .dump "parsed.txt" (utf8 tree.dump)
      return tree
  stage r .check do
    let checked := tree.check true
    modify fun s => { s with bag := s.bag.map (·.addAll checked.found) }
    match checked.error? with
    | some summary => throw (.compile (.check r.path summary))
    | none => return ()
  let unit ← stage r .lower do
    match tree.lower (unitName r.path) with
    | .ok u => return u
    | .error e => throw (.compile (.lower r.path e))
  stage r .emit do
    let g := emit unit true
    writeOutput r g
    modify fun s => { s with disk := Cache.keep r.cache s.disk f g true }

/-- Writes a source from the cache, or takes it through the stages up to there. -/
def generate (r : BuildRequest) (f : SourceFile) : BuildM Unit := do
  let disk := (← get).disk
  match if r.dumpsTree then none else Cache.lookup r.cache disk f true with
  | some g =>
    modify fun s => { s with cached := true }
    tell .parse .cached r.path
    tell .check .cached r.path
    tell .lower .cached r.path
    stage r .emit (writeOutput r g)
  | none => frontend r f

/-- Writes the files that every program is linked with. -/
def writeCompanions (r : BuildRequest) : BuildM Unit := do
  onDisk .companion fun d => d.makeDirs r.dir
  C.companions.forM fun (name, text) => onDisk .companion fun d => d.write (r.pathOf name) text
  modify fun s => { s with generated := s.generated ++ C.companions.map (·.1) }

/-- Makes the executable. -/
def link (r : BuildRequest) : BuildM Unit := do
  let (disk, failure) := r.toolchain.probe (← get).disk
  modify fun s => { s with disk, probed := true }
  if let some m := failure then throw (.tool m)
  let (disk, failure) := r.toolchain.compile disk r.call
  modify fun s => { s with disk, call := some r.call }
  if let some m := failure then throw (.tool m)

/-- Runs the executable. -/
def start (r : BuildRequest) : BuildM Unit := do
  match r.launch (← get).disk r.outputPath r.runArgs with
  | .ok o =>
    modify fun s => { s with
      disk := o.disk, out := s.out ++ o.out, err := s.err ++ o.err, exit := o.status.code }
  | .error f =>
    modify fun s => { s with exit := -1 }
    throw (.start r.outputPath f)

/-- Goes through all stages of a build. -/
def build (r : BuildRequest) : BuildM Unit := do
  if r.path.isEmpty then throw .noSource
  let (f, library) := (← get).library.loadFile (← get).disk r.path
  modify fun s => { s with library }
  match f with
  | .error e =>
    tell .parse .error r.path (some (.load e))
    throw (.load e)
  | .ok f =>
    modify fun s => { s with bag := some { limit := r.limit } }
    prepare r
    generate r f
    stage r .runtime (writeCompanions r)
    stage r .compile (link r)
    if r.run then stage r .run (start r)

end BuildM

/-- How a build ended. Without a source there is no build directory either. -/
structure BuildResult where
  buildDir : String
  outputPath : String
  state : BuildState
  error : Option BuildError

/-- Where a build begins. -/
def BuildRequest.initial (r : BuildRequest) (disk : Disk) : BuildState := { disk, library := r.library }

/-- Builds on a disk. -/
def BuildRequest.build (r : BuildRequest) (disk : Disk) : BuildResult :=
  let (outcome, state) := (BuildM.build r).run (r.initial disk)
  ⟨if r.path.isEmpty then "" else r.dir, if r.path.isEmpty then "" else r.outputPath,
    { state with generated := state.generated.mergeSort fun a b => a ≤ b },
    match outcome with
    | .ok _ => none
    | .error e => some e⟩

/-- Why a build directory was not removed. -/
inductive CleanFault where
  | refused (dir : String)
  | disk (fault : DiskFault)
  deriving DecidableEq, Repr

/-- What is said about a fault. -/
def CleanFault.message : CleanFault → String
  | refused dir =>
    "refusing to remove " ++ Text.quoted dir ++ ": not a " ++ defaultBuildDir ++ " directory"
  | disk f => f.message

/-- Removes a build directory, if it is one that only builds write to. -/
def cleanBuild (d : Disk) (dir : String) : Except CleanFault Disk :=
  let dir := if dir.isEmpty then defaultBuildDir else dir
  if Path.base (Path.clean dir) != defaultBuildDir then .error (.refused dir)
  else match d.removeAll dir with
    | .ok d => .ok d
    | .error f => .error (.disk f)

end PineLang
