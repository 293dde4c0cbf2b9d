import PineLang.Build.Pipeline
import PineLang.Cli.Session

/-!
# Commands on projects

Building a program, running it, and removing what a build left.
-/
namespace PineLang.Cli

/-- The source that is meant, by a flag or by an argument. -/
def sourceArg (flagPath : String) : List String → Except String String
  | [] => .ok flagPath
  | [path] =>
    if flagPath.isEmpty || flagPath == path then .ok path
    else .error ("both --path " ++ Text.quoted flagPath ++ " and " ++ Text.quoted path ++ " given")
  | more => .error s!"expected at most one source file, got {more.length}"

/-- Opens the cache. A cache that cannot be opened is done without. -/
def openCache (e : Environment) (g : Globals) : CliM (Option Cache.Store) := do
  match Cache.Store.openIn (← get).disk e.cacheDir with
  | .ok (store, disk) =>
    modify fun s => { s with disk }
    return some store
  | .error f =>
    if !g.quiet then warn ("warning: build cache disabled: " ++ f.message ++ "\n")
    return none

/-- How much to optimize: as flags say, or else as the project says. -/
def optOf (a : Arguments) (t : Target) : OptLevel :=
  if a.isOn "release" then .release
  else if a.isOn "unsafe-release" then .unsafeRelease
  else t.opt

/-- The first of two texts, or the second if that is empty. -/
def orElse (s t : String) : String := if s.isEmpty then t else s

/-- Builds a program, and runs it if asked to. Flags win over the manifest. -/
def runBuild (e : Environment) (a : Arguments) (always : Bool) : CliM Unit := do
  let g ← readGlobals a
  let _ ← orFail ("--ui: " ++ ·) (Mode.read (a.text "ui" "auto"))
  let run := always || a.isOn "run"
  let before := a.dash.getD a.rest.length
  let path ← orFail id (sourceArg (a.text "path") (a.rest.take before))
  let t ← orFail TargetFault.message (Target.resolve (← get).disk path)
  let name := orElse (a.text "compiler") t.compiler
  match CCompiler.ofName? name with
  | none => failWith (CCompiler.fault name)
  | some c =>
    let cache ← if a.isOn "no-cache" then pure none else openCache e g
    let r : BuildRequest := {
      path := t.source
      buildDir := t.buildDir
      outputName := orElse (a.text "output") t.output
      toolchain := c.toolchain e.search
      opt := optOf a t
      dumpsTree := a.isOn "emit-irs"
      run
      runArgs := a.rest.drop before
      launch := fun d path args => startProgram d e.search path args
      cache
      limit := g.limit }
    let b := r.build (← get).disk
    modify fun s => { s with disk := b.state.disk, out := s.out ++ b.state.out, err := s.err ++ b.state.err }
    if let some bag := b.state.bag then showBag g b.state.library bag
    if g.timings then warn (Timings.text (b.state.timed.map fun st => (st, e.stepTime)))
    match b.error with
    | some err => if err.isDiagnosed then throw .reported else throw (.message err.bytes)
    | none =>
      if !g.quiet && !run then
        put ("built " ++ b.outputPath ++ (if b.state.cached then " (cached C)" else "") ++ "\n")
      if run && b.state.exit != 0 then throw (.status b.state.exit)

/-- The build directory of a path: that of its project, if it belongs to one. -/
def cleanTarget (d : Disk) (path : String) : Except TargetFault String :=
  match Target.resolve d path with
  | .ok t => .ok t.buildDir
  | .error .noManifest => .ok defaultBuildDir
  | .error f => .error f

/-- Nothing stands at a path. -/
def isMissing (d : Disk) (path : String) : Bool :=
  match d.stat path with
  | .error ⟨_, _, .missing⟩ => true
  | _ => false

/-- Removes the build directory, and empties the cache if asked to. -/
def runClean (e : Environment) (a : Arguments) : CliM Unit := do
  let g ← readGlobals a
  let d := (← get).disk
  let dir ← orFail TargetFault.message (cleanTarget d (a.rest.headD ""))
  if isMissing d dir then
    if !g.quiet then put (dir ++ " not found\n")
  else
    let disk ← orFail CleanFault.message (cleanBuild d dir)
    modify fun s => { s with disk }
    if !g.quiet then put ("removed " ++ dir ++ "\n")
  if a.isOn "cache" then
    let (store, disk) ← orFail DiskFault.message (Cache.Store.openIn (← get).disk e.cacheDir)
    let disk ← orFail DiskFault.message (store.clear disk)
    modify fun s => { s with disk }
    if !g.quiet then put ("dropped " ++ store.dir ++ "\n")

end PineLang.Cli
