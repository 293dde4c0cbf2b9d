import PineLang.Unix.Pattern
import PineLang.Unix.Reader
import PineLang.Unix.Tools

/-!
# Running shells

What a script works with while it runs: the disk and the streams that all programs share, and the
parameters, functions and channels of its own.
-/
namespace PineLang.Shell

/-- Where a channel leads: to a stream that is collected, to a source of input, to a file, or to
    nothing. -/
inductive Channel where
  | stream (number : Nat)
  | source (number : Nat)
  | file (loc : Location)
  | nothing
  deriving DecidableEq, Repr

/-- What programs share: the disk, what was written to each stream, and what is left of each
    source. The first two streams are output and complaints; the first source is empty. -/
structure World where
  disk : Disk
  streams : List Bytes := [[], []]
  sources : List Bytes := [[]]

namespace World

/-- Writes to a channel. -/
def write (w : World) (bs : Bytes) : Channel → World
  | .stream n => { w with streams := w.streams.modify n (· ++ bs) }
  | .file loc =>
    match w.disk.entry? loc with
    | some (.file content runnable) => { w with disk := w.disk.put loc (.file (content ++ bs) runnable) }
    | _ => w
  | .source _ | .nothing => w

/-- Adds a stream; the answer is its number. -/
def addStream (w : World) : Nat × World := (w.streams.length, { w with streams := w.streams ++ [[]] })

/-- Takes the last stream away; the answer is what was written to it. -/
def dropStream (w : World) : Bytes × World :=
  (w.streams.getLastD [], { w with streams := w.streams.dropLast })

/-- Adds a source; the answer is its number. -/
def addSource (w : World) (bs : Bytes) : Nat × World :=
  (w.sources.length, { w with sources := w.sources ++ [bs] })

/-- What is left of the input on a channel. -/
def input (w : World) : Option Channel → Bytes
  | some (.source n) => w.sources[n]?.getD []
  | some (.file loc) =>
    match w.disk.entry? loc with
    | some (.file content _) => content
    | _ => []
  | _ => []

/-- Leaves only some of the input on a channel. -/
def leave (w : World) (bs : Bytes) : Option Channel → World
  | some (.source n) => { w with sources := w.sources.set n bs }
  | _ => w

end World

/-- Where a script goes on: with the next command, behind or at the start of an enclosing loop, after
    the call of a function, or not at all. -/
inductive Flow where
  | next
  | leaveLoop (levels : Nat)
  | nextRound (levels : Nat)
  | back
  | stop
  | killed (signal : Nat)
  deriving DecidableEq, Repr

/-- What a script was told to do besides, by the letters of the options. -/
structure Options where
  letters : List Char := []
  deriving DecidableEq, Repr

namespace Options

/-- The options by their letters and long names, in the order in which they are listed. Two of them
    have no letter. -/
def known : List (Option Char × String) := [
  (some 'e', "errexit"), (some 'f', "noglob"), (some 'I', "ignoreeof"), (some 'i', "interactive"),
  (some 'm', "monitor"), (some 'n', "noexec"), (some 's', "stdin"), (some 'x', "xtrace"),
  (some 'v', "verbose"), (some 'V', "vi"), (some 'E', "emacs"), (some 'C', "noclobber"),
  (some 'a', "allexport"), (some 'b', "notify"), (some 'u', "nounset"), (some 'p', "privileged"),
  (none, "nolog"), (none, "debug")]

/-- The script ends when a command fails. -/
def stopsAtFailure (o : Options) : Bool := o.letters.contains 'e'

/-- A parameter that is not set is refused. -/
def refusesUnset (o : Options) : Bool := o.letters.contains 'u'

/-- Commands are shown before they run. -/
def showsCommands (o : Options) : Bool := o.letters.contains 'x'

/-- Patterns are left alone. -/
def keepsPatterns (o : Options) : Bool := o.letters.contains 'f'

/-- Files that exist are not written over. -/
def keepsFiles (o : Options) : Bool := o.letters.contains 'C'

/-- Parameters that are set are given to programs. -/
def exportsAll (o : Options) : Bool := o.letters.contains 'a'

/-- Commands are read and not run. -/
def onlyReads (o : Options) : Bool := o.letters.contains 'n'

/-- Switches an option. -/
def switch (o : Options) (on : Bool) (c : Char) : Options :=
  let others := o.letters.filter (· != c)
  ⟨if on then c :: others else others⟩

/-- The letters of the options that are on, in the order in which they are shown. -/
def shown (o : Options) : String :=
  String.ofList (known.reverse.filterMap fun x => x.1.filter o.letters.contains)

end Options

/-- A script while it runs. `partStatus` is the status of the last part whose output was taken,
    `loops` counts the loops around a command, `tested` says that its failure is looked at, `under`
    names what reads the text that runs now, and `readTo` is the line up to which it was read. -/
structure State where
  world : World
  name : String
  args : List String := []
  vars : Values := []
  exported : List String := []
  fixed : List String := []
  functions : List (String × Command) := []
  channels : List (Nat × Channel) := [(0, .source 0), (1, .stream 0), (2, .stream 1)]
  documents : List (Nat × Word) := []
  count : Nat := 0
  line : Nat := 1
  status : Nat := 0
  partStatus : Nat := 0
  flow : Flow := .next
  options : Options := {}
  traps : List (Nat × String) := []
  calls : Nat := 0
  loops : Nat := 0
  tested : Bool := false
  under : Option String := none
  readTo : Nat := 1

namespace State

/-- The number of the shell as a process. -/
def processNumber : String := "4711"

/-- Sets a parameter. -/
def set (s : State) (name value : String) : State :=
  { s with
    vars := (name, value) :: s.vars.filter (·.1 != name)
    exported := if s.options.exportsAll then name :: s.exported else s.exported }

/-- The value of a parameter, if it is set. -/
def value? (s : State) (name : String) : Option String :=
  match name with
  | "0" => some s.name
  | "#" => some (toString s.args.length)
  | "?" => some (toString s.status)
  | "@" | "*" => if s.args.isEmpty then none else some (" ".intercalate s.args)
  | "$" => some processNumber
  | "!" => none
  | "-" => some s.options.shown
  | _ =>
    if !name.isEmpty && name.toList.all Char.isDigit then s.args[name.toNat?.getD 0 - 1]?
    else s.vars.lookup name

/-- The characters that divide fields. -/
def dividers (s : State) : List Char := ((s.vars.lookup "IFS").getD " \t\n").toList

/-- The directories in which programs are looked for. -/
def search (s : State) : List String := ((s.vars.lookup "PATH").getD "").splitOn ":"

/-- What stands before a command that is shown. -/
def mark (s : State) : String := (s.vars.lookup "PS4").getD "+ "

/-- The channel of a number. -/
def channel? (s : State) (n : Nat) : Option Channel := s.channels.lookup n

/-- Writes to a channel by its number; nothing happens if it is closed. -/
def writeTo (s : State) (n : Nat) (bs : Bytes) : State :=
  match s.channel? n with
  | some c => { s with world := s.world.write bs c }
  | none => s

/-- Complains of something at the current line. -/
def complain (s : State) (text : String) : State :=
  s.writeTo 2 (utf8 (s.name ++ ": " ++ toString s.line ++ ": " ++
    (s.under.map (· ++ ": ")).getD "" ++ text ++ "\n"))

/-- Does something in the name of a command, or of none. -/
def within (s : State) (under : Option String) (run : State → State) : State :=
  { run { s with under } with under := s.under }

/-- Ends the script with a complaint. -/
def abort (s : State) (text : String) : State :=
  { s.complain text with flow := .stop, status := 2 }

/-- Nothing more is to be done. -/
def isOver (s : State) : Bool :=
  match s.flow with
  | .stop | .killed _ => true
  | _ => false

/-- The next command is to be run. -/
def goesOn (s : State) : Bool := s.flow == .next

/-- Goes on after a part that ran as a shell of its own: what it did to parameters, functions and the
    working directory is forgotten. -/
def afterPart (s part : State) : State :=
  { s with
    world := { part.world with disk := { part.world.disk with cwd := s.world.disk.cwd } }
    status := part.status % 256
    flow := match part.flow with
      | .killed n => .killed n
      | _ => s.flow }

/-- The parameters that programs get. -/
def environment (s : State) : Values := s.vars.filter fun v => s.exported.contains v.1

end State

/-! ## Fields -/

/-- A character of an expanded word, or what stands between its fields. Text that an expansion gave
    `divides`, unless it is quoted; `empty` makes a field of nothing. -/
inductive Glyph where
  | char (c : Char) (isQuoted divides : Bool)
  | gap
  | empty
  deriving DecidableEq, Repr

/-- The glyphs of a text. -/
def glyphs (s : String) (isQuoted divides : Bool) : List Glyph :=
  s.toList.map fun c => .char c isQuoted divides

/-- A field: its characters, each with whether it is quoted. -/
abbrev Field := List (Char × Bool)

/-- The text of a field. -/
def Field.text (f : Field) : String := String.ofList (f.map (·.1))

/-- Fields while they are put together. `soft` says that white space ended the last one. -/
structure Fields where
  done : List Field := []
  open? : Option Field := none
  soft : Bool := false

namespace Fields

/-- Ends the field that was begun. -/
def close (f : Fields) (soft : Bool) : Fields :=
  match f.open? with
  | some x => { done := x.reverse :: f.done, open? := none, soft }
  | none => f

/-- Adds a glyph. White space divides fields; another divider ends a field even if it is empty. -/
def add (dividers : List Char) (f : Fields) : Glyph → Fields
  | .gap => f.close false
  | .empty => { f with open? := some (f.open?.getD []) }
  | .char c quoted divides =>
    if divides && dividers.contains c then
      if c == ' ' || c == '\t' || c == '\n' then f.close true
      else if f.open?.isSome then f.close false
      else if f.soft then { f with soft := false }
      else { f with done := [] :: f.done }
    else { f with open? := some ((c, quoted) :: f.open?.getD []) }

/-- The fields of glyphs. -/
def of (dividers : List Char) (gs : List Glyph) : List Field :=
  ((gs.foldl (add dividers) {}).close false).done.reverse

end Fields

/-- The text of glyphs that are not divided. -/
def glyphText (gs : List Glyph) : String :=
  String.ofList (gs.filterMap fun g => match g with
    | .char c _ _ => some c
    | .gap => some ' '
    | .empty => none)

/-- The characters of glyphs, for a pattern. -/
def glyphField (gs : List Glyph) : Field :=
  gs.filterMap fun g => match g with
    | .char c q _ => some (c, q)
    | _ => none

/-! ## Names of files -/

/-- Splits a field at its slashes. -/
def Field.parts (f : Field) : List Field := f.splitOnP fun x => x.1 == '/'

/-- The paths that parts of a pattern match below a path. -/
def expandParts (d : Disk) (before : String) : List Field → List String
  | [] => [before]
  | part :: rest =>
    let join (name : String) : String := before ++ name ++ if rest.isEmpty then "" else "/"
    let atoms := pattern part
    if isOpen atoms then
      let here := if before.isEmpty then "." else before
      match d.find here with
      | .ok (loc, .dir) =>
        ((d.names loc).filter fun n =>
          matchesAll atoms n.toList && (!(n.startsWith ".") || atoms.head? == some (.char '.'))).flatMap
            fun n => if rest.isEmpty || ((d.stat (join n)).toOption.any Entry.isDir) then
              expandParts d (join n) rest else []
      | _ => []
    else
      let name := String.ofList (atoms.filterMap fun a => match a with
        | .char c => some c
        | _ => none)
      if rest.isEmpty then if (d.stat (join name)).toOption.isSome || name.isEmpty then [join name] else []
      else expandParts d (join name) rest

/-- The paths that a field matches, in order, or the field itself if it matches none. -/
def Field.paths (f : Field) (d : Disk) : List String :=
  if isOpen (pattern f) then
    match (expandParts d "" f.parts).mergeSort fun a b => decide (a ≤ b) with
    | [] => [f.text]
    | found => found
  else [f.text]

end PineLang.Shell
