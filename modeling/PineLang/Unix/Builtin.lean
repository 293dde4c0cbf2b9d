import PineLang.Unix.Program
import PineLang.Unix.State

/-!
# Commands of the shell

The commands that a shell runs by itself, without another program and without running further
commands: they print, test, read a line, and change parameters, options and what is done at a
signal.
-/
namespace PineLang.Shell

/-- The commands whose faults end a script, and whose assignments stay. -/
def specialBuiltins : List String :=
  [".", ":", "break", "continue", "eval", "exec", "exit", "export", "readonly", "return", "set",
   "shift", "times", "trap", "unset"]

/-- The other commands of the shell. -/
def plainBuiltins : List String :=
  ["[", "alias", "bg", "cd", "command", "echo", "false", "fg", "getopts", "hash", "jobs", "kill",
   "local", "printf", "pwd", "read", "test", "true", "type", "ulimit", "umask", "unalias", "wait"]

/-- A number argument of a command. -/
def countArg? (arg : String) : Option Nat :=
  if !arg.isEmpty && arg.toList.all Char.isDigit then arg.toNat? else none

/-- What is said about a signal that stopped a program which a script waited for. -/
def deathNotice (signal : Nat) : String :=
  let text := match signal with
    | 10 => "User defined signal 1"
    | 12 => "User defined signal 2"
    | 5 => "Trace/breakpoint trap"
    | n => ((signals.find? fun x => x.1 == n).map fun x => x.2.2.capitalize).getD ("Signal " ++ toString n)
  if signal == 2 || signal == 13 then "" else text ++ "\n"

/-- Switches options by their letters. -/
def switchAll (s : State) (on : Bool) : List Char → State
  | [] => s
  | c :: cs =>
    if Options.known.any fun x => x.1 == some c then
      switchAll { s with options := s.options.switch on c } on cs
    else s.abort ("set: Illegal option -" ++ String.singleton c)

/-- Switches an option by its long name. -/
def switchNamed (s : State) (on : Bool) (name : String) : State :=
  match Options.known.find? fun x => x.2 == name with
  | some (some c, _) => { s with options := s.options.switch on c }
  | some (none, _) => s
  | none => s.abort ("set: Illegal option -o " ++ name)

/-- The list of all options. -/
def optionList (o : Options) : String :=
  "Current option settings\n" ++ String.join (Options.known.map fun x =>
    x.2 ++ "".pushn ' ' (16 - x.2.length) ++ (if x.1.any o.letters.contains then "on\n" else "off\n"))

/-- Sets options and arguments. -/
def setOptions (s : State) : List String → State
  | [] => s
  | "--" :: rest => { s with args := rest }
  | "-" :: rest =>
    let s := { s with options := (s.options.switch false 'x').switch false 'v' }
    if rest.isEmpty then s else { s with args := rest }
  | ["-o"] => s.writeTo 1 (utf8 (optionList s.options))
  | "-o" :: name :: rest =>
    let s := switchNamed s true name
    if s.isOver then s else setOptions s rest
  | "+o" :: name :: rest =>
    let s := switchNamed s false name
    if s.isOver then s else setOptions s rest
  | arg :: rest =>
    match arg.toList with
    | '-' :: c :: cs =>
      let s := switchAll s true (c :: cs)
      if s.isOver then s else setOptions s rest
    | '+' :: c :: cs =>
      let s := switchAll s false (c :: cs)
      if s.isOver then s else setOptions s rest
    | _ => { s with args := arg :: rest }

/-- Marks parameters for a command, and sets those that have a value. -/
def declare (command : String) (mark : State → String → State) (s : State) (args : List String) :
    State :=
  args.foldl (fun s arg =>
    let name := String.ofList (arg.toList.takeWhile (· != '='))
    if s.isOver then s
    else if !isNameText name then s.abort (command ++ ": " ++ name ++ ": bad variable name")
    else if name.length == arg.length then mark s name
    else if s.fixed.contains name then s.abort (command ++ ": " ++ name ++ ": is read only")
    else mark (s.set name (String.ofList (arg.toList.drop (name.length + 1)))) name) { s with status := 0 }

/-- One line of input, whether it was complete, and what follows; a backslash joins lines unless
    `raw` is set. -/
def inputLine (raw : Bool) (done : List (Char × Bool)) :
    List Char → List (Char × Bool) × Bool × List Char
  | [] => (done.reverse, false, [])
  | '\n' :: rest => (done.reverse, true, rest)
  | '\\' :: c :: rest =>
    if raw then inputLine raw (('\\', false) :: done) (c :: rest)
    else if c == '\n' then inputLine raw done rest
    else inputLine raw ((c, true) :: done) rest
  | c :: rest => inputLine raw ((c, false) :: done) rest

/-- Takes one field off, with the white space around it. -/
def takeField (dividers : List Char) (cs : List (Char × Bool)) : List Char × List (Char × Bool) :=
  let divides (x : Char × Bool) : Bool := !x.2 && dividers.contains x.1
  let blank (x : Char × Bool) : Bool := divides x && (x.1 == ' ' || x.1 == '\t')
  let cs := cs.dropWhile blank
  let field := cs.takeWhile (!divides ·)
  let rest := (cs.drop field.length).dropWhile blank
  let rest := match rest with
    | x :: more => if divides x then more.dropWhile blank else rest
    | [] => []
  (field.map (·.1), rest)

/-- Spreads a line over parameters; the last one takes all that is left. -/
def spread (dividers : List Char) (s : State) (cs : List (Char × Bool)) : List String → State
  | [] => s
  | [name] =>
    let blank (x : Char × Bool) : Bool := !x.2 && dividers.contains x.1 && (x.1 == ' ' || x.1 == '\t')
    let kept := ((cs.dropWhile blank).reverse.dropWhile blank).reverse
    let (field, rest) := takeField dividers kept
    s.set name (if rest.isEmpty then String.ofList field else String.ofList (kept.map (·.1)))
  | name :: names =>
    let (field, rest) := takeField dividers cs
    spread dividers (s.set name (String.ofList field)) rest names

/-- Reads a line of input into parameters. -/
def readInput (s : State) (args : List String) : State :=
  let raw := args.head? == some "-r"
  let names := if raw then args.drop 1 else args
  if names.isEmpty then { s.complain "read: arg count" with status := 2 }
  else if let some n := names.find? (!isNameText ·) then
    { s.complain ("read: " ++ n ++ ": bad variable name") with status := 2 }
  else
    let source := s.channel? 0
    let (line, complete, rest) := inputLine raw [] (Text.chars (s.world.input source))
    let s := { s with world := s.world.leave (utf8 (String.ofList rest)) source }
    { spread s.dividers s line names with status := if complete then 0 else 1 }

/-- A test by the shell itself. -/
def runTest (s : State) (name : String) (args : List String) : State :=
  match testAnswer s.world.disk false args with
  | .ok b => { s with status := if b then 0 else 1 }
  | .error f => { s.complain (name ++ ": " ++ f.message) with status := 2 }

/-- Writes what a command of the shell prints; it fails if the output is closed. -/
def State.print (s : State) (name : String) (bs : Bytes) : State :=
  match s.channel? 1 with
  | none =>
    if bs.isEmpty then s else { s.complain (name ++ ": " ++ name ++ ": I/O error") with status := 1 }
  | some c => { s with world := s.world.write bs c }

/-- Names signals: all of them, or that of a number or of the status of a program. -/
def listSignals (s : State) (args : List String) : State :=
  match args.head? with
  | none =>
    { s with status := 0 }.print "kill"
      (utf8 (String.join ((List.range (greatestSignal + 1)).map fun n => signalName n ++ "\n")))
  | some arg =>
    match countArg? arg with
    | none => { s.complain ("kill: Illegal number: " ++ arg) with status := 2 }
    | some n =>
      let k := if 128 < n then n - 128 else n
      if k == 0 || greatestSignal < k then
        { s.complain ("kill: invalid signal number or exit status: " ++ arg) with status := 2 }
      else { s with status := 0 }.print "kill" (utf8 (signalName k ++ "\n"))

/-- The part of a text that is complained of where a number was looked for: a sign has been taken
    off. -/
def badNumber (s : String) : String := if s.startsWith "-" then (s.drop 1).toString else s

/-- The option of a command that asks for a signal, and the processes named. -/
def killArgs : List String → Except String (Nat × List String)
  | ["-s"] => .error "No arg for -s option"
  | "-s" :: name :: rest => match signalOf? name with
    | some n => .ok (n, rest)
    | none => .error ("invalid signal number or name: " ++ name)
  | "--" :: rest => .ok (15, rest)
  | arg :: rest =>
    match arg.toList with
    | '-' :: c :: cs =>
      match signalOf? (String.ofList (c :: cs)) with
      | some n => .ok (n, rest)
      | none =>
        if c == 's' && !cs.isEmpty then match signalOf? (String.ofList cs) with
          | some n => .ok (n, rest)
          | none => .error ("invalid signal number or name: " ++ String.ofList cs)
        else .error ("Illegal option -" ++ String.singleton c)
    | _ => .ok (15, arg :: rest)
  | [] => .ok (15, [])

/-- Changes the working directory. -/
def changeDir (s : State) (args : List String) : State :=
  let target := (args.filter fun a => a != "--" && a != "-P" && a != "-L").headD ((s.value? "HOME").getD "")
  let back := target == "-"
  let path := if back then (s.value? "OLDPWD").getD "" else if target.isEmpty then "." else target
  match s.world.disk.find path with
  | .ok (loc, .dir) =>
    let old := (s.value? "PWD").getD ""
    let here := "/" ++ "/".intercalate loc
    let s := { s with world := { s.world with disk := { s.world.disk with cwd := loc } }, status := 0 }
    let s := (s.set "OLDPWD" old).set "PWD" here
    if back then s.writeTo 1 (utf8 (here ++ "\n")) else s
  | _ => { s.complain ("cd: can't cd to " ++ path) with status := 2 }

/-- The path of the program that a name without slashes stands for. -/
def State.programPath? (s : State) (name : String) : Option String :=
  match locate s.world.disk s.search name with
  | some p => some p
  | none =>
    if isTool name || shellPaths.contains ("/bin/" ++ name) then
      (s.search.find? fun dir => toolDirs.contains (dir ++ "/")).map (· ++ "/" ++ name)
    else none

/-- There is a program of this name or at this path. -/
def State.canStart (s : State) (name : String) : Bool :=
  if name.contains '/' then (s.world.disk.find name).toOption.isSome ||
    (systemTool? name).any (fun t => isTool t) || shellPaths.contains name
  else (s.programPath? name).isSome

/-- What a name would run. -/
def State.meaning (s : State) (name : String) : Option (String × String) :=
  if keywords.contains name then some (name, name ++ " is a shell keyword")
  else if (s.functions.lookup name).isSome then some (name, name ++ " is a shell function")
  else if specialBuiltins.contains name then some (name, name ++ " is a special shell builtin")
  else if plainBuiltins.contains name then some (name, name ++ " is a shell builtin")
  else (s.programPath? name).map fun p => (p, name ++ " is " ++ p)

/-- A text in single quotes; a quote in it stands in double quotes. -/
def singleQuoted (s : String) : String :=
  "'" ++ "'\"'\"'".intercalate (s.splitOn "'") ++ "'"

/-- Runs a command of the shell that needs nothing else to be run. -/
def runBuiltin (s : State) (name : String) (args : List String) : State :=
  match name with
  | ":" | "true" | "jobs" | "times" | "ulimit" => { s with status := 0 }
  | "false" => { s with status := 1 }
  | "echo" => { s with status := 0 }.print "echo" (echoText args)
  | "printf" =>
    let (out, complaints, code) := printfText args
    let s := complaints.foldl (fun s m => s.complain ("printf: " ++ m)) s
    { s with status := code }.print "printf" out
  | "alias" | "unalias" =>
    args.foldl (fun s n =>
      if n.contains '=' then s
      else { s.writeTo 2 (utf8 (name ++ ": " ++ n ++ " not found\n")) with status := 1 })
      { s with status := 0 }
  | "hash" =>
    args.foldl (fun s n => match s.meaning n with
      | some _ => s
      | none => { s.complain ("hash: " ++ n ++ ": not found") with status := 1 }) { s with status := 0 }
  | "bg" | "fg" => { s.complain (name ++ ": No current job") with status := 2 }
  | "wait" =>
    match args.head? with
    | none => { s with status := 0 }
    | some n =>
      if (countArg? n).isSome then { s with status := 127 }
      else { s.complain ("wait: Illegal number: " ++ n) with status := 2 }
  | "test" => runTest s "test" args
  | "[" =>
    if args.getLast? == some "]" then runTest s "[" args.dropLast
    else { s.complain "[: missing ]" with status := 2 }
  | "pwd" => { s.writeTo 1 (utf8 ("/" ++ "/".intercalate s.world.disk.cwd ++ "\n")) with status := 0 }
  | "cd" => changeDir s args
  | "read" => readInput s args
  | "umask" => { s.writeTo 1 (utf8 "0022\n") with status := 0 }
  | "exit" | "return" =>
    let flow := if name == "exit" then Flow.stop else .back
    match args with
    | [] => { s with flow }
    | n :: _ =>
      match countArg? n with
      | some n => { s with flow, status := n }
      | none => s.abort (name ++ ": Illegal number: " ++ n)
  | "break" | "continue" =>
    let given := args.headD "1"
    match countArg? given with
    | none | some 0 => s.abort (name ++ ": Illegal number: " ++ given)
    | some n =>
      let n := min n s.loops
      let flow := if n == 0 then .next else if name == "break" then .leaveLoop n else .nextRound n
      { s with status := 0, flow }
  | "shift" =>
    match countArg? (args.headD "1") with
    | none => s.abort ("shift: Illegal number: " ++ args.headD "")
    | some n =>
      if n > s.args.length then s.abort "shift: can't shift that many"
      else { s with args := s.args.drop n, status := 0 }
  | "set" => setOptions { s with status := 0 } args
  | "unset" =>
    let names := args.filter fun a => a != "-v" && a != "-f"
    let s := { s with status := 0 }
    if args.head? == some "-f" then { s with functions := s.functions.filter fun f => !names.contains f.1 }
    else if let some n := names.find? (!isNameText ·) then
      s.abort ("unset: " ++ n ++ ": bad variable name")
    else match names.find? s.fixed.contains with
      | some n => s.abort ("unset: " ++ n ++ ": is read only")
      | none => { s with
          vars := s.vars.filter fun v => !names.contains v.1
          exported := s.exported.filter fun n => !names.contains n }
  | "export" => declare name (fun s n => { s with exported := n :: s.exported }) s (args.filter (· != "-p"))
  | "readonly" => declare name (fun s n => { s with fixed := n :: s.fixed }) s (args.filter (· != "-p"))
  | "local" =>
    if s.calls == 0 then s.abort "local: not in a function" else declare name (fun s _ => s) s args
  | "trap" =>
    let signal? (n : String) : Option Nat := if n == "EXIT" then some 0 else signalOf? n
    match args with
    | [] =>
      let listed := (s.traps.mergeSort fun a b => decide (a.1 ≤ b.1)).map fun (n, action) =>
        "trap -- " ++ singleQuoted action ++ " " ++ (if n == 0 then "EXIT" else signalName n) ++ "\n"
      { s with status := 0 }.print "trap" (utf8 (String.join listed))
    | action :: names =>
      let targets := if names.isEmpty then [action] else names
      match targets.find? fun n => (signal? n).isNone with
      | some n => { s.writeTo 2 (utf8 ("trap: " ++ n ++ ": bad trap\n")) with status := 1 }
      | none =>
        let numbers := targets.filterMap signal?
        let others := s.traps.filter fun t => !numbers.contains t.1
        let traps := if names.isEmpty || action == "-" then others else numbers.map (·, action) ++ others
        { s with traps, status := 0 }
  | "type" =>
    args.foldl (fun s n => match s.meaning n with
      | some (_, text) => s.writeTo 1 (utf8 (text ++ "\n"))
      | none => { s.writeTo 1 (utf8 (n ++ ": not found\n")) with status := 127 }) { s with status := 0 }
  | _ => { s with status := 0 }

end PineLang.Shell
