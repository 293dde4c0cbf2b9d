import PineLang.Source.Path
import PineLang.Text.Utf8

/-!
# File trees

A disk as a value: directories and files by their place under the root. Every operation takes a
path as it is written, relative to a working directory, follows it part by part and either answers
or says what is wrong with the path.
-/
namespace PineLang

/-- A place on the disk: the names on the way down from the root. -/
abbrev Location := List String

/-- What stands at a place. -/
inductive Entry where
  | dir
  | file (content : Bytes) (runnable : Bool)
  deriving DecidableEq, Repr, Inhabited

/-- A directory. -/
def Entry.isDir : Entry → Bool
  | dir => true
  | file _ _ => false

/-- Why a path does not serve. -/
inductive DiskCause where
  | missing | notDirectory | isDirectory | alreadyThere | denied | notRunnable | invalid | tooLong
  deriving DecidableEq, Repr

/-- What is said about a cause. -/
def DiskCause.text : DiskCause → String
  | missing => "no such file or directory"
  | notDirectory => "not a directory"
  | isDirectory => "is a directory"
  | alreadyThere => "file exists"
  | denied => "permission denied"
  | notRunnable => "exec format error"
  | invalid => "invalid argument"
  | tooLong => "file name too long"

/-- A failed operation on a path. -/
structure DiskFault where
  op : String
  path : String
  cause : DiskCause
  deriving DecidableEq, Repr

/-- What is said about a failed operation. -/
def DiskFault.message (f : DiskFault) : String := f.op ++ " " ++ f.path ++ ": " ++ f.cause.text

/-- The entries of a disk, with the working directory. The root needs no entry. -/
structure Disk where
  entries : List (Location × Entry) := []
  cwd : Location := []
  deriving Repr, Inhabited

namespace Disk

/-- What stands at a place. -/
def entry? (d : Disk) (loc : Location) : Option Entry :=
  if loc.isEmpty then some .dir else d.entries.lookup loc

/-- Puts an entry at a place, over what stood there. -/
def put (d : Disk) (loc : Location) (e : Entry) : Disk :=
  if (d.entries.lookup loc).isSome then
    { d with entries := d.entries.map fun x => if x.1 == loc then (loc, e) else x }
  else { d with entries := d.entries ++ [(loc, e)] }

/-- Takes away a place and everything below it. -/
def erase (d : Disk) (loc : Location) : Disk :=
  { d with entries := d.entries.filter fun x => !(loc.isPrefixOf x.1) }

/-! ## Following paths -/

/-- The longest name in a directory, in bytes. -/
def longestName : Nat := 255

/-- The longest path, in bytes. -/
def longestPath : Nat := 4095

/-- Goes on from a place, which must be a directory, by one part of a path. -/
def enter (d : Disk) (loc : Location) (part : String) : Except DiskCause Location :=
  match d.entry? loc with
  | none => .error .missing
  | some (.file _ _) => .error .notDirectory
  | some .dir =>
    if part == "" || part == "." then .ok loc
    else if part == ".." then .ok loc.dropLast
    else if part.utf8ByteSize > longestName then .error .tooLong
    else .ok (loc ++ [part])

/-- The place a path leads to; only its last part may be missing. No path holds a zero
    character. -/
def follow (d : Disk) (path : String) : Except DiskCause Location :=
  if path.isEmpty then .error .missing
  else if path.toList.contains '\x00' then .error .invalid
  else if path.utf8ByteSize > longestPath then .error .tooLong
  else (Path.parts path).foldlM d.enter (if Path.isAbs path then [] else d.cwd)

/-- What a path leads to. -/
def find (d : Disk) (path : String) : Except DiskCause (Location × Entry) := do
  let loc ← d.follow path
  match d.entry? loc with
  | some e => .ok (loc, e)
  | none => .error .missing

/-- What a path leads to, or the fault of looking at it. -/
def stat (d : Disk) (path : String) : Except DiskFault Entry :=
  match d.find path with
  | .ok (_, e) => .ok e
  | .error c => .error ⟨"stat", path, c⟩

/-! ## Files -/

/-- The content of a file. -/
def read (d : Disk) (path : String) : Except DiskFault Bytes :=
  match d.find path with
  | .ok (_, .file content _) => .ok content
  | .ok (_, .dir) => .error ⟨"read", path, .isDirectory⟩
  | .error c => .error ⟨"open", path, c⟩

/-- A path without the slashes at its end, which say that it leads to a directory. -/
def withoutSlash (path : String) : String :=
  String.ofList (path.toList.reverse.dropWhile (· == '/')).reverse

/-- Writes a file; its directory must be there, and no slash may stand behind its name. A file that
    is there stays as runnable as it is. -/
def write (d : Disk) (path : String) (content : Bytes) (runnable : Bool := false) :
    Except DiskFault Disk :=
  match d.follow (if path.endsWith "/" then withoutSlash path else path) with
  | .error c => .error ⟨"open", path, c⟩
  | .ok loc =>
    if path.endsWith "/" then .error ⟨"open", path, .isDirectory⟩
    else match d.entry? loc, d.entry? loc.dropLast with
    | some .dir, _ => .error ⟨"open", path, .isDirectory⟩
    | some (.file _ r), _ => .ok (d.put loc (.file content r))
    | none, some .dir => .ok (d.put loc (.file content runnable))
    | none, some (.file _ _) => .error ⟨"open", path, .notDirectory⟩
    | none, none => .error ⟨"open", path, .missing⟩

/-! ## Directories -/

/-- The path of the directory above, without the slash after it; none if the path names no other
    than the working directory or the root. -/
def parentText? (path : String) : Option String :=
  match (path.toList.reverse.dropWhile (· == '/')).dropWhile (· != '/') with
  | _ :: c :: cs => some (String.ofList (c :: cs).reverse)
  | _ => none

/-- Makes one directory. -/
def makeDir (d : Disk) (path : String) : Except DiskFault Disk :=
  match d.follow path with
  | .ok loc =>
    match d.entry? loc, d.entry? loc.dropLast with
    | some _, _ => .error ⟨"mkdir", path, .alreadyThere⟩
    | none, some .dir => .ok (d.put loc .dir)
    | none, some (.file _ _) => .error ⟨"mkdir", path, .notDirectory⟩
    | none, none => .error ⟨"mkdir", path, .missing⟩
  | .error .notDirectory =>
    -- a file named with a slash after it is in the way
    match d.find (String.ofList (path.toList.reverse.dropWhile (· == '/')).reverse) with
    | .ok _ => .error ⟨"mkdir", path, .alreadyThere⟩
    | .error _ => .error ⟨"mkdir", path, .notDirectory⟩
  | .error .missing =>
    -- a path with a slash after it may still name a new directory
    match d.follow (String.ofList (path.toList.reverse.dropWhile (· == '/')).reverse) with
    | .ok loc =>
      match d.entry? loc, d.entry? loc.dropLast with
      | none, some .dir => .ok (d.put loc .dir)
      | _, _ => .error ⟨"mkdir", path, .missing⟩
    | .error c => .error ⟨"mkdir", path, c⟩
  | .error c => .error ⟨"mkdir", path, c⟩

/-- Makes a directory and what is missing above it, for a path of at most `fuel` parts. -/
def makeDirsFrom (d : Disk) (path : String) : Nat → Except DiskFault Disk
  | 0 => .ok d
  | fuel + 1 =>
    match d.stat path with
    | .ok .dir => .ok d
    | .ok (.file _ _) => .error ⟨"mkdir", path, .notDirectory⟩
    | .error _ => do
      let d ← match parentText? path with
        | none => .ok d
        | some up => makeDirsFrom d up fuel
      match d.makeDir path, d.stat path with
      | .ok d, _ => .ok d
      | .error _, .ok .dir => .ok d
      | .error f, _ => .error f

/-- Makes a directory and what is missing above it. -/
def makeDirs (d : Disk) (path : String) : Except DiskFault Disk :=
  d.makeDirsFrom path (path.length + 1)

/-- The path without its last part, and the last part, for a path without a final slash. -/
def splitLast (path : String) : String × String :=
  let cs := path.toList.reverse.dropWhile (· == '/')
  let last := String.ofList (cs.takeWhile (· != '/')).reverse
  let up := String.ofList (cs.dropWhile (· != '/')).reverse
  if up.isEmpty then (".", last)
  else
    let trimmed := String.ofList (up.toList.reverse.dropWhile (· == '/')).reverse
    (if trimmed.isEmpty then "/" else trimmed, last)

/-- The path ends in a dot that stands for the directory itself. -/
def endsInDot (path : String) : Bool := path == "." || path.endsWith "/."

/-- Takes away whatever is at a path; it is no fault if there is nothing. -/
def removeAll (d : Disk) (path : String) : Except DiskFault Disk :=
  if path.isEmpty then .ok d
  else if endsInDot path then .error ⟨"RemoveAll", path, .invalid⟩
  else match d.find path with
    | .ok (loc, _) => .ok (d.erase loc)
    | .error .missing => .ok d
    | .error c =>
      let (up, last) := splitLast path
      match d.find up with
      | .error .missing => .ok d
      | .error c => .error ⟨"open", up, c⟩
      | .ok _ => .error ⟨"unlinkat", up ++ "/" ++ last, c⟩

/-- The names in a directory, in order. -/
def names (d : Disk) (loc : Location) : List String :=
  (d.entries.filterMap fun x =>
    if x.1.length == loc.length + 1 && loc.isPrefixOf x.1 then x.1.getLast? else none).mergeSort
      fun a b => a ≤ b

/-- The files below a place, each with the names that lead to it from there, in the order of their
    paths. -/
def filesBelow (d : Disk) (loc : Location) : List (Location × Bytes) :=
  (d.entries.filterMap fun x => match x.2 with
    | .file content _ => if loc.isPrefixOf x.1 then some (x.1.drop loc.length, content) else none
    | .dir => none).mergeSort fun a b => "/".intercalate a.1 ≤ "/".intercalate b.1

end Disk

end PineLang
