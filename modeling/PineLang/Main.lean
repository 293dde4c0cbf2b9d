import PineLang.Cli.Call

/-!
# The program

Reads the sources and the manifest around the working directory, calls the program on them, and
writes back what changed. No other programs are started from here, so a build ends where a C
compiler would be needed.
-/
namespace PineLang.Main

/-- The names on the way down to a path. -/
def locationOf (path : String) : Location := Path.cleaned path

/-- A file that a call may read. -/
def isWanted (name : String) : Bool := name.endsWith sourceExt || name == manifestName

/-- Reads a file, if it is one. -/
def readFile? (path : String) : IO (Option Bytes) := do
  try
    return some (← IO.FS.readBinFile path).toList
  catch _ => return none

/-- Adds what stands at a path to a disk: all files in a build directory, and elsewhere those that a
    call may read. -/
partial def scan (d : Disk) (path : String) (all : Bool) : IO Disk := do
  let here ← IO.currentDir
  let entries ← try (here / path).readDir catch _ => pure #[]
  let d := d.put (locationOf path) .dir
  entries.foldlM (fun d e => do
    let below := path ++ "/" ++ e.fileName
    if ← (here / below).isDir then
      if all || e.fileName == defaultBuildDir || !e.fileName.startsWith "." then
        scan d below (all || e.fileName == defaultBuildDir)
      else return d
    else if all || isWanted e.fileName then
      match ← readFile? below with
      | some bs => return d.put (locationOf below) (.file bs false)
      | none => return d
    else return d) d

/-- Adds the directories down to a place, and the manifests in them. -/
def addAbove (d : Disk) (loc : Location) : IO Disk :=
  (List.range loc.length).foldlM (fun (d : Disk) n => do
    let up := loc.take (n + 1)
    let d := if (d.entry? up).isNone then d.put up .dir else d
    match ← readFile? ("/" ++ "/".intercalate (up ++ [manifestName])) with
    | some bs => return d.put (up ++ [manifestName]) (.file bs false)
    | none => return d) d

/-- Adds a file that an argument names. -/
def addNamed (d : Disk) (arg : String) : IO Disk := do
  match ← readFile? arg with
  | some bs =>
    let loc := locationOf (Path.absolute ("/" ++ "/".intercalate d.cwd) arg)
    return (← addAbove d loc.dropLast).put loc (.file bs false)
  | none => return d

/-- Adds the cache below a directory, if there is one. -/
def addCache (d : Disk) (home : String) : IO Disk := do
  let dir := (⟨[], home, 0⟩ : Cli.Environment).cacheDir
  if ← ((← IO.currentDir) / dir).isDir then
    scan (← addAbove d (locationOf dir).dropLast) dir true
  else return d

/-- Writes back the files that changed, and takes away those that are gone. -/
def writeBack (before after : Disk) : IO Unit := do
  for (loc, e) in before.entries do
    if (after.entry? loc).isNone then
      try
        match e with
        | .dir => IO.FS.removeDirAll ("/" ++ "/".intercalate loc)
        | .file _ _ => IO.FS.removeFile ("/" ++ "/".intercalate loc)
      catch _ => pure ()
  for (loc, e) in after.entries do
    if before.entry? loc != some e then
      match e with
      | .dir => IO.FS.createDirAll ("/" ++ "/".intercalate loc)
      | .file bs _ =>
        IO.FS.createDirAll ("/" ++ "/".intercalate loc.dropLast)
        IO.FS.writeBinFile ("/" ++ "/".intercalate loc) (ByteArray.mk bs.toArray)

end PineLang.Main

/-- Calls the program with the arguments of the process. -/
def main (args : List String) : IO UInt32 := do
  let here := (← IO.currentDir).toString
  let home := (← IO.getEnv "XDG_CACHE_HOME").getD ((← IO.getEnv "HOME").getD "" ++ "/.cache")
  let disk : PineLang.Disk := { cwd := PineLang.Main.locationOf here }
  let disk ← PineLang.Main.addAbove disk disk.cwd
  let disk ← PineLang.Main.scan disk here false
  let disk ← PineLang.Main.addCache disk home
  let disk ← args.foldlM PineLang.Main.addNamed disk
  let r := PineLang.Cli.callOn { cacheHome := home } disk args
  PineLang.Main.writeBack disk r.disk
  (← IO.getStdout).write (ByteArray.mk r.out.toArray)
  (← IO.getStderr).write (ByteArray.mk r.err.toArray)
  return (r.status % 256).toNat.toUInt32
