import PineLang.Unix.Condition
import PineLang.Unix.Format
import PineLang.Unix.Status

/-!
# Tools

The tools that come with a system, as far as scripts use them on files and text. A tool takes its
arguments and its input, and leaves a disk, output, complaints and a code.
-/
namespace PineLang.Shell

/-- What a tool leaves. -/
structure Result where
  disk : Disk
  out : Bytes := []
  err : Bytes := []
  code : Nat := 0

/-- How a tool is called: the name it was called by, its arguments and its input. -/
structure Call where
  name : String
  args : List String
  input : Bytes

/-- What the system says about a cause. -/
def causeText : DiskCause → String
  | .missing => "No such file or directory"
  | .notDirectory => "Not a directory"
  | .isDirectory => "Is a directory"
  | .alreadyThere => "File exists"
  | .denied => "Permission denied"
  | .notRunnable => "Exec format error"
  | .invalid => "Invalid argument"
  | .tooLong => "File name too long"

/-- A line that a tool complains with. -/
def Call.complaint (c : Call) (text : String) : Bytes := utf8 (c.name ++ ": " ++ text ++ "\n")

/-- A call that cannot be understood: the complaint and where to read more. -/
def Call.misused (c : Call) (d : Disk) (text : String) : Result :=
  { disk := d
    err := c.complaint text ++ utf8 ("Try '" ++ c.name ++ " --help' for more information.\n")
    code := 1 }

/-- The letters of the options, and the arguments that are none. -/
def Call.split (c : Call) : List Char × List String :=
  let isOption (a : String) : Bool := a.startsWith "-" && a.length > 1
  ((c.args.takeWhile fun a => a != "--").filter isOption |>.flatMap fun a => a.toList.drop 1,
    let before := c.args.takeWhile fun a => a != "--"
    before.filter (!isOption ·) ++ c.args.drop (before.length + 1))

/-- The lines of a text, without their ends. -/
def linesOf (bs : Bytes) : List Bytes :=
  let parts := bs.splitOn 10
  if parts.getLast? == some [] then parts.dropLast else parts

/-- Lines with their ends. -/
def unlines (ls : List Bytes) : Bytes := ls.flatMap (· ++ [10])

/-- Reads the files named, or the input if none is; a dash names the input. -/
def Call.contents (c : Call) (d : Disk) (paths : List String) : List (String × Except DiskCause Bytes) :=
  if paths.isEmpty then [("-", .ok c.input)]
  else paths.map fun p =>
    if p == "-" then (p, .ok c.input)
    else if p == "/dev/null" then (p, .ok [])
    else match d.read p with
      | .ok bs => (p, .ok bs)
      | .error f => (p, .error f.cause)

/-- Works on the files named, one after the other. -/
def Call.overFiles (c : Call) (d : Disk) (paths : List String) (work : Bytes → Bytes) : Result :=
  (c.contents d paths).foldl (fun r (p, bs) => match bs with
    | .ok bs => { r with out := r.out ++ work bs }
    | .error cause => { r with err := r.err ++ c.complaint (p ++ ": " ++ causeText cause), code := 1 })
    { disk := d }

/-- Works on all that the files named hold together. -/
def Call.overAll (c : Call) (d : Disk) (paths : List String) (work : Bytes → Bytes) : Result :=
  let r := c.overFiles d paths id
  { r with out := work r.out }

/-! ## Files -/

/-- Changes the disk for each of some paths. -/
def Call.onEach (c : Call) (d : Disk) (paths : List String)
    (work : Disk → String → Except String Disk) : Result :=
  paths.foldl (fun r p => match work r.disk p with
    | .ok d => { r with disk := d }
    | .error m => { r with err := r.err ++ c.complaint m, code := 1 }) { disk := d }

/-- Whether a mode lets a file be run; none if it says nothing about that. -/
def modeRuns? (mode : String) : Option Bool :=
  if mode.toList.all Char.isDigit then some (mode.toList.any fun c => (c.toNat - 48) % 2 == 1)
  else if !mode.contains 'x' then if mode.contains '=' then some false else none
  else some (mode.contains '+' || mode.contains '=')

/-- A part of a mode: for whom, and what is added, taken away or set. -/
def isModeClause (cs : List Char) : Bool :=
  let rest := cs.dropWhile fun c => "ugoa".contains c
  match rest with
  | c :: rights => "+-=".contains c && rights.all fun c => "rwxXstugo+-=".contains c
  | [] => false

/-- The text is a mode: octal digits, or parts with commas between them. -/
def isMode (mode : String) : Bool :=
  let cs := mode.toList
  (!cs.isEmpty && cs.length ≤ 5 && cs.all fun c => '0' ≤ c && c ≤ '7') || (cs.splitOn ',').all isModeClause

/-- Sets whether files can be run. -/
def chmodTool (c : Call) (d : Disk) : Result :=
  let args := c.args.filter fun a => !(["-R", "-f", "-v", "-c", "--"].contains a)
  match args with
  | [mode] => c.misused d ("missing operand after '" ++ mode ++ "'")
  | mode :: paths =>
    if !isMode mode then c.misused d ("invalid mode: '" ++ mode ++ "'")
    else c.onEach d paths fun d p => match d.find p with
      | .ok (loc, .file content runs) => .ok (d.put loc (.file content ((modeRuns? mode).getD runs)))
      | .ok (_, .dir) => .ok d
      | .error cause => .error ("cannot access '" ++ p ++ "': " ++ causeText cause)
  | [] => c.misused d "missing operand"

/-- The path of a file under its own name in a directory. -/
def intoDir (d : Disk) (source dest : String) : String :=
  match d.stat dest with
  | .ok .dir => (if dest.endsWith "/" then dest else dest ++ "/") ++ Path.base source
  | _ => dest

/-- A call that names no file, or no place for it to go. -/
def Call.lacksFiles (c : Call) (d : Disk) : List String → Result
  | [] => c.misused d "missing file operand"
  | p :: _ => c.misused d ("missing destination file operand after '" ++ p ++ "'")

/-- Copies files. -/
def cpTool (c : Call) (d : Disk) : Result :=
  let (_, paths) := c.split
  let dest := paths.getLastD ""
  if paths.length < 2 then c.lacksFiles d paths
  else c.onEach d paths.dropLast fun d p => match d.find p with
    | .ok (_, .file content runs) =>
      match d.write (intoDir d p dest) content runs with
      | .ok d => .ok d
      | .error f => .error ("cannot create regular file '" ++ intoDir d p dest ++ "': " ++ causeText f.cause)
    | .ok (_, .dir) => .error ("-r not specified; omitting directory '" ++ p ++ "'")
    | .error cause => .error ("cannot stat '" ++ p ++ "': " ++ causeText cause)

/-- Moves files and directories. -/
def mvTool (c : Call) (d : Disk) : Result :=
  let (_, paths) := c.split
  let dest := paths.getLastD ""
  if paths.length < 2 then c.lacksFiles d paths
  else c.onEach d paths.dropLast fun d p => match d.find p, d.follow (intoDir d p dest) with
    | .error cause, _ => .error ("cannot stat '" ++ p ++ "': " ++ causeText cause)
    | .ok (loc, _), .ok target =>
      let moved := d.entries.filterMap fun (l, e) =>
        if loc.isPrefixOf l then some (target ++ l.drop loc.length, e) else none
      .ok (moved.foldl (fun d (l, e) => d.put l e) (d.erase loc))
    | .ok _, .error cause =>
      .error ("cannot move '" ++ p ++ "' to '" ++ intoDir d p dest ++ "': " ++ causeText cause)

/-- Removes files, and directories if asked to. -/
def rmTool (c : Call) (d : Disk) : Result :=
  let (options, paths) := c.split
  let deep := options.contains 'r' || options.contains 'R'
  if paths.isEmpty && !options.contains 'f' then c.misused d "missing operand"
  else c.onEach d paths fun d p => match d.find p with
    | .ok (loc, .file _ _) => .ok (d.erase loc)
    | .ok (loc, .dir) =>
      if deep then .ok (d.erase loc) else .error ("cannot remove '" ++ p ++ "': Is a directory")
    | .error cause =>
      if options.contains 'f' && cause == .missing then .ok d
      else .error ("cannot remove '" ++ p ++ "': " ++ causeText cause)

/-- Makes directories. -/
def mkdirTool (c : Call) (d : Disk) : Result :=
  let (options, paths) := c.split
  if paths.isEmpty then c.misused d "missing operand"
  else c.onEach d paths fun d p =>
    match if options.contains 'p' then d.makeDirs p else d.makeDir p with
    | .ok d => .ok d
    | .error f => .error ("cannot create directory '" ++ p ++ "': " ++
        causeText (if f.cause == .notDirectory && options.contains 'p' then .alreadyThere else f.cause))

/-- Removes empty directories. -/
def rmdirTool (c : Call) (d : Disk) : Result :=
  if c.split.2.isEmpty then c.misused d "missing operand"
  else c.onEach d c.split.2 fun d p => match d.find p with
    | .ok (loc, .dir) =>
      if (d.names loc).isEmpty then .ok (d.erase loc)
      else .error ("failed to remove '" ++ p ++ "': Directory not empty")
    | .ok _ => .error ("failed to remove '" ++ p ++ "': Not a directory")
    | .error cause => .error ("failed to remove '" ++ p ++ "': " ++ causeText cause)

/-- Makes files that are not there. -/
def touchTool (c : Call) (d : Disk) : Result :=
  if c.split.2.isEmpty then c.misused d "missing file operand"
  else c.onEach d c.split.2 fun d p =>
    if (d.stat p).toOption.isSome then .ok d
    else match d.write p [] with
      | .ok d => .ok d
      | .error f => .error ("cannot touch '" ++ p ++ "': " ++ causeText f.cause)

/-- Lists names, one a line. -/
def lsTool (c : Call) (d : Disk) : Result :=
  let (options, paths) := c.split
  let shown (loc : Location) : Bytes :=
    let names := if options.contains 'a' then [".", ".."] ++ d.names loc
      else (d.names loc).filter fun n => !(n.startsWith ".")
    utf8 (String.join (names.map (· ++ "\n")))
  (if paths.isEmpty then ["."] else paths).foldl (fun r p => match d.find p with
    | .ok (loc, .dir) =>
      if options.contains 'd' then { r with out := r.out ++ utf8 (p ++ "\n") }
      else { r with out := r.out ++ (if paths.length > 1 then utf8 (p ++ ":\n") else []) ++ shown loc }
    | .ok _ => { r with out := r.out ++ utf8 (p ++ "\n") }
    | .error cause =>
      { r with err := r.err ++ c.complaint ("cannot access '" ++ p ++ "': " ++ causeText cause), code := 2 })
    { disk := d }

/-! ## Text -/

/-- How many lines a tool is asked for, and the files. -/
def lineCountOf (args : List String) : Nat × List String :=
  match args with
  | "-n" :: n :: rest => (n.toNat?.getD 10, rest)
  | a :: rest =>
    if a.startsWith "-n" then ((a.drop 2).toString.toNat?.getD 10, rest)
    else if a.startsWith "-" && (a.drop 1).toString.toNat?.isSome then
      ((a.drop 1).toString.toNat?.getD 10, rest)
    else (10, args)
  | [] => (10, [])

/-- Takes bytes up to the end of a number of lines. -/
def headLines (n : Nat) (bs : Bytes) : Bytes :=
  let ls := bs.splitOn 10
  if ls.length ≤ n then bs else unlines (ls.take n)

/-- Takes the bytes of the last lines. -/
def tailLines (n : Nat) (bs : Bytes) : Bytes :=
  let complete := bs.getLast? == some 10
  let ls := linesOf bs
  let kept := unlines (ls.drop (ls.length - n))
  if complete then kept else kept.dropLast

/-- The words of a text. -/
def wordCount (bs : Bytes) : Nat :=
  (bs.foldl (fun (n, inside) b =>
    let blank := b == 32 || (9 ≤ b && b ≤ 13)
    (if !blank && !inside then n + 1 else n, !blank)) (0, false)).1

/-- Counts lines, words or bytes. -/
def wcTool (c : Call) (d : Disk) : Result :=
  let (options, paths) := c.split
  let count (bs : Bytes) : String :=
    let lines := (bs.filter (· == 10)).length
    let all := [(options.contains 'l', lines), (options.contains 'w', wordCount bs),
      (options.contains 'c', bs.length)]
    let chosen := all.filter (·.1)
    if chosen.length == 1 then toString ((chosen.map (·.2)).headD 0)
    else
      let ns := (if chosen.isEmpty then all else chosen).map (·.2)
      let width := if paths.isEmpty then 7 else (toString bs.length).length
      " ".intercalate (ns.map fun n =>
        let s := toString n
        "".pushn ' ' (width - s.length) ++ s)
  (c.contents d paths).foldl (fun r (p, bs) => match bs with
    | .ok bs => { r with out := r.out ++ utf8 (count bs ++ (if paths.isEmpty then "" else " " ++ p) ++ "\n") }
    | .error cause => { r with err := r.err ++ c.complaint (p ++ ": " ++ causeText cause), code := 1 })
    { disk := d }

/-- Lines in order. -/
def sortTool (c : Call) (d : Disk) : Result :=
  let (options, paths) := c.split
  c.overAll d paths fun bs =>
    let number (l : Bytes) : Int := (Text.lossy l).trimAscii.toString.toInt?.getD 0
    let sorted := if options.contains 'n' then (linesOf bs).mergeSort fun a b => number a ≤ number b
      else (linesOf bs).mergeSort fun a b => decide (a ≤ b)
    let sorted := if options.contains 'r' then sorted.reverse else sorted
    unlines (if options.contains 'u' then sorted.eraseDups else sorted)

/-- Leaves out lines that repeat the one before. -/
def uniqLines : List Bytes → List Bytes
  | a :: b :: rest => if a == b then uniqLines (b :: rest) else a :: uniqLines (b :: rest)
  | ls => ls

/-- The characters of a set of `tr`. -/
def trSet : List Char → List Char
  | a :: '-' :: b :: rest =>
    ((List.range (b.toNat + 1 - a.toNat)).map fun i => Char.ofNat (a.toNat + i)) ++ trSet rest
  | '\\' :: 'n' :: rest => '\n' :: trSet rest
  | '\\' :: 't' :: rest => '\t' :: trSet rest
  | '\\' :: c :: rest => c :: trSet rest
  | c :: rest => c :: trSet rest
  | [] => []

/-- Replaces characters, or leaves them out. -/
def trTool (c : Call) (d : Disk) : Result :=
  let text := Text.lossy c.input
  match c.args with
  | ["-d", set] =>
    { disk := d
      out := utf8 (String.ofList (text.toList.filter fun x => !(trSet set.toList).contains x)) }
  | [source, target] =>
    let a := trSet source.toList
    let b := trSet target.toList
    { disk := d
      out := utf8 (String.ofList (text.toList.map fun x => match a.idxOf? x with
        | some i => b[i]?.getD (b.getLastD x)
        | none => x)) }
  | _ => c.misused d "missing operand"

/-- The directory part of a path. -/
def dirText (p : String) : String :=
  let cs := p.toList.reverse.dropWhile (· == '/')
  let up := (cs.dropWhile (· != '/')).dropWhile (· == '/')
  if !up.isEmpty then String.ofList up.reverse
  else if cs.contains '/' || (cs.isEmpty && p.startsWith "/") then "/" else "."

/-- Numbers in steps. -/
def seqTool (c : Call) (d : Disk) : Result :=
  let range (a b step : Int) : List Int :=
    if step == 0 then []
    else (List.range ((Int.fdiv (b - a) step + 1).toNat)).map fun (i : Nat) => a + step * (i : Int)
  let listed (ns : List Int) : Result :=
    { disk := d, out := utf8 (String.join (ns.map fun n => toString n ++ "\n")) }
  match c.args.map fun a => a.toInt?.getD 0 with
  | [b] => listed (range 1 b 1)
  | [a, b] => listed (range a b 1)
  | [a, step, b] => listed (range a b step)
  | _ => c.misused d "missing operand"

/-- Runs a test under a name. -/
def testTool (c : Call) (d : Disk) (args : List String) : Result :=
  match testAnswer d false args with
  | .ok b => { disk := d, code := if b then 0 else 1 }
  | .error f => { disk := d, err := c.complaint f.message, code := 2 }

/-- Runs a tool by its name; none if it is not known. -/
def runTool (d : Disk) (tool : String) (c : Call) : Option Result :=
  match tool with
  | "true" | "sync" => some { disk := d }
  | "sleep" => some (if c.args.isEmpty then c.misused d "missing operand" else { disk := d })
  | "false" => some { disk := d, code := 1 }
  | "echo" =>
    let silent := c.args.head? == some "-n"
    let text := " ".intercalate (if silent then c.args.drop 1 else c.args)
    some { disk := d, out := utf8 (if silent then text else text ++ "\n") }
  | "printf" =>
    let (out, complaints, code) := printfText c.args
    some { disk := d, out, err := complaints.flatMap c.complaint, code }
  | "test" => some (testTool c d c.args)
  | "[" =>
    if c.args.getLast? == some "]" then some (testTool c d c.args.dropLast)
    else some { disk := d, err := c.complaint "missing ']'", code := 2 }
  | "pwd" => some { disk := d, out := utf8 ("/" ++ "/".intercalate d.cwd ++ "\n") }
  | "cat" => some (c.overFiles d c.split.2 id)
  | "chmod" => some (chmodTool c d)
  | "cp" => some (cpTool c d)
  | "mv" => some (mvTool c d)
  | "rm" => some (rmTool c d)
  | "mkdir" => some (mkdirTool c d)
  | "rmdir" => some (rmdirTool c d)
  | "touch" => some (touchTool c d)
  | "ls" => some (lsTool c d)
  | "head" =>
    let (n, paths) := lineCountOf c.args
    some (c.overFiles d paths (headLines n))
  | "tail" =>
    let (n, paths) := lineCountOf c.args
    some (c.overFiles d paths (tailLines n))
  | "wc" => some (wcTool c d)
  | "sort" => some (sortTool c d)
  | "uniq" => some (c.overAll d c.split.2 fun bs => unlines (uniqLines (linesOf bs)))
  | "tr" => some (trTool c d)
  | "rev" => some (c.overAll d c.split.2 fun bs => unlines ((linesOf bs).map List.reverse))
  | "tee" =>
    let (options, paths) := c.split
    let r := c.onEach d paths fun d p =>
      let old := if options.contains 'a' then (d.read p).toOption.getD [] else []
      match d.write p (old ++ c.input) with
      | .ok d => .ok d
      | .error f => .error (p ++ ": " ++ causeText f.cause)
    some { r with out := c.input }
  | "basename" =>
    match c.args with
    | [p] => some { disk := d, out := utf8 (Path.base p ++ "\n") }
    | [p, suffix] =>
      let b := Path.base p
      let kept := if b.endsWith suffix && b != suffix then (b.dropEnd suffix.length).toString else b
      some { disk := d, out := utf8 (kept ++ "\n") }
    | _ => some (c.misused d "missing operand")
  | "dirname" => some { disk := d, out := utf8 (dirText (c.args.headD "") ++ "\n") }
  | "seq" => some (seqTool c d)
  | "uname" => some { disk := d, out := utf8 "Linux\n" }
  | _ => none

end PineLang.Shell
