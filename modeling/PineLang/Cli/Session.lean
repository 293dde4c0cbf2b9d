import PineLang.Build.Stage
import PineLang.Cli.Flag
import PineLang.Diag.Bag
import PineLang.Diag.Render
import PineLang.Source.Directory
import PineLang.Terminal.Mode
import PineLang.Trace.Level

/-!
# Sessions

One call of the program: what it wrote so far, the disk it works on, and how it can fail.
-/
namespace PineLang.Cli

/-- What the program finds around it: the directories in which other programs are looked for, the
    directory of caches, and the nanoseconds that a step is taken to last. -/
structure Environment where
  search : List String := []
  cacheHome : String := "/.cache"
  stepTime : Nat := 100000

/-- The directory of the cache. -/
def Environment.cacheDir (e : Environment) : String := Path.join [e.cacheHome, "pine"]

/-- Why a call fails: with a message, with what was already said in diagnostics, or with the status
    of a program that was run. -/
inductive Failure where
  | message (text : Bytes)
  | reported
  | status (code : Int)
  deriving DecidableEq, Repr

/-- A call of the program so far, with the steps that were measured and the path of the profile that
    is written at its end. -/
structure Session where
  disk : Disk
  out : Bytes := []
  err : Bytes := []
  phases : List Phase := []
  heapProfile : String := ""

/-- A step of a call. -/
abbrev CliM := ExceptT Failure (StateM Session)

/-- Fails with a message. -/
def failWith {α : Type} (text : String) : CliM α := throw (.message (utf8 text))

/-- Writes bytes to the output. -/
def putBytes (bs : Bytes) : CliM Unit := modify fun s => { s with out := s.out ++ bs }

/-- Writes text to the output. -/
def put (s : String) : CliM Unit := putBytes (utf8 s)

/-- Writes bytes beside the output. -/
def warnBytes (bs : Bytes) : CliM Unit := modify fun s => { s with err := s.err ++ bs }

/-- Writes text beside the output. -/
def warn (s : String) : CliM Unit := warnBytes (utf8 s)

/-- Goes on with the value of an answer, or fails with what is said about it. -/
def orFail {ε α : Type} (say : ε → String) : Except ε α → CliM α
  | .ok a => return a
  | .error e => failWith (say e)

/-- Does something at the end of a step, whether it failed or not. -/
def endingWith (body : CliM Unit) (last : CliM Unit) : CliM Unit := do
  let r ← ExceptT.lift body.run
  last
  match r with
  | .ok _ => return ()
  | .error f => throw f

/-! ## Flags of all commands -/

/-- What the flags of all commands say. -/
structure Globals where
  color : Mode
  quiet : Bool
  timings : Bool
  limit : Nat
  deriving Repr

/-- Reads the flags of all commands. -/
def readGlobals (a : Arguments) : CliM Globals := do
  let color ← orFail ("--color: " ++ ·) (Mode.read (a.text "color" "auto"))
  let limit := a.number "max-diagnostics" 100
  if limit < 0 then failWith "--max-diagnostics must not be negative"
  return ⟨color, a.isOn "quiet", a.isOn "timings", limit.toNat⟩

/-- Makes an empty file for a profile, if one is asked for. -/
def openProfile (path : String) : CliM Unit := do
  if !path.isEmpty then
    let disk ← orFail DiskFault.message ((← get).disk.write path [])
    modify fun s => { s with disk }

/-- Ends the profiles of a call. One that cannot be written is complained of and nothing more. -/
def Session.endProfiles (s : Session) : Session :=
  if s.heapProfile.isEmpty then s
  else match s.disk.write s.heapProfile [] with
    | .ok disk => { s with disk }
    | .error f => { s with err := s.err ++ utf8 ("profile: " ++ f.message ++ "\n") }

/-- Lets the flags take effect that do so before a command: colours, profiles, and what is traced. -/
def setUp (a : Arguments) : CliM Unit := do
  let _ ← orFail ("--color: " ++ ·) (Mode.read (a.text "color" "auto"))
  openProfile (a.text "cpuprofile" "")
  openProfile (a.text "exec-trace" "")
  modify fun s => { s with heapProfile := a.text "memprofile" "" }
  let level := a.text "trace-level" "off"
  if (Trace.Level.ofText? level).isNone then failWith (Trace.Level.fault level)
  let format := a.text "trace-format" "auto"
  if (Trace.Format.ofText? format).isNone then failWith (Trace.Format.fault format)

/-- Colours are on, where nothing is a terminal. -/
def Globals.isColoured (g : Globals) : Bool := g.color.isEnabled false

/-! ## Diagnostics -/

/-- The files of a library. -/
def filesOf (l : Library) (d : Disk) : Render.Files := fun id => (l.fetch d.read id).1.toOption

/-- Shows diagnostics in the order of the source. -/
def showBag (g : Globals) (l : Library) (b : Bag) : CliM Unit := do
  let d := (← get).disk
  let workDir := "/" ++ "/".intercalate d.cwd
  let o := Render.pretty (filesOf l d) { color := g.isColoured, workDir } b.sort.items
  warnBytes o.text
  if let some f := o.fault then failWith ("failed to print diagnostics: " ++ f.message)

/-- Shows diagnostics, and fails if there are errors among them. -/
def reportBag (g : Globals) (l : Library) (b : Bag) : CliM Unit := do
  showBag g l b
  if b.hasErrors then throw .reported

end PineLang.Cli
