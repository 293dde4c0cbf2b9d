import PineLang.Cli.Command
import PineLang.Cli.Session

/-!
# Completion of words

What a word that is being typed can become: the name of a flag, or of a command. The shell passes
the words of the line, the last of them unfinished.
-/
namespace PineLang.Cli

/-- What the shell does besides offering the choices: it offers names of files, or it does not. -/
inductive Directive where
  | files | noFiles
  deriving DecidableEq, Repr

namespace Directive

/-- The number that the shell reads. -/
def code : Directive → String
  | files => "0"
  | noFiles => "4"

/-- The name shown to people. -/
def name : Directive → String
  | files => "ShellCompDirectiveDefault"
  | noFiles => "ShellCompDirectiveNoFileComp"

end Directive

/-- What a word can become, each choice with what is said about it. A fault leaves no choices. -/
structure Completion where
  choices : List (String × String) := []
  directive : Directive := .files
  fault : Option String := none
  deriving DecidableEq, Repr

/-- The choices that a word is the start of. -/
def startingWith (word : String) (rows : List (String × String)) : List (String × String) :=
  rows.filter fun r => word.toList.isPrefixOf r.1.toList

/-! ## Values of flags -/

/-- Where the unfinished word stands: it is the value of a flag, or not. `args` are the finished
    words without a flag that still waits for its value, and `word` is what of the last word is to
    be completed. -/
structure Spot where
  flag : Option Flag := none
  args : List String
  word : String
  fault : Option String := none

/-- The command reads flags. -/
def Command.readsFlags (c : Command) : Bool :=
  match c.verb with
  | .complete _ => false
  | _ => true

/-- The name of the last flag of an argument: of a group of short flags it is the last one. -/
def lastFlagName (arg : String) : String :=
  match arg.toList with
  | '-' :: '-' :: cs => String.ofList cs
  | cs => String.ofList (cs.drop (cs.length - 1))

/-- The flag with a name; a name of one letter is that of a short flag. -/
def Command.flag? (c : Command) (name : String) : Option Flag :=
  match name.toList with
  | [short] => c.allFlags.find? fun f => f.short == some short
  | _ => c.allFlags.find? fun f => f.name == name

/-- Finds the flag whose value is being typed. `typed` is the flag in the word itself, before an
    equals sign. Without one it is the flag that the word before it leaves open; a switch leaves
    nothing open. -/
def openFlag (c : Command) (args : List String) (whole word : String) (typed : Option String) : Spot :=
  let before := match typed with
    | some name => if name.isEmpty then none else some (name, args)
    | none => none
  let waiting := args.getLast?.bind fun arg =>
    if isFlagArg arg && !arg.contains '=' then some (lastFlagName arg, args.dropLast) else none
  match before <|> waiting with
  | none => { args, word }
  | some (name, trimmed) =>
    match c.flag? name with
    | none =>
      { args, word := whole
        fault := some ("Subcommand '" ++ c.name ++ "' does not support flag '" ++ name ++ "'") }
    | some f =>
      if typed.isNone && f.kind == .switch then { args, word }
      else { flag := some f, args := trimmed, word }

/-- Where the unfinished word stands on the line of a command. -/
def Command.spot (c : Command) (args : List String) (word : String) : Spot :=
  if !c.readsFlags then { args, word }
  else if !(word.startsWith "-") then openFlag c args word word none
  else match cutAtEquals word.toList with
    | (_, none) => { args, word }
    | (flag, some value) => openFlag c args word value (some (lastFlagName flag))

/-! ## Choices -/

/-- Flags in order of their names. -/
def sortedFlags (flags : List Flag) : List Flag := flags.mergeSort fun a b => a.name ≤ b.name

/-- The flags that a line can still take: those not given yet, and not excluded by one that is. The
    flags of all commands come first. -/
def Command.openFlags (c : Command) (a : Arguments) : List Flag :=
  let all := if c.verb == .root then sortedFlags c.allFlags
    else sortedFlags globalFlags ++ sortedFlags c.ownFlags
  all.filter fun f => !a.has f.name &&
    !(c.exclusive.contains f.name && c.exclusive.any fun g => g != f.name && a.has g)

/-- A flag in its long and its short form. -/
def Flag.rows (f : Flag) : List (String × String) :=
  ("--" ++ f.name, f.usage) ::
    match f.short with
    | some c => [("-" ++ String.singleton c, f.usage)]
    | none => []

/-- What a command itself offers for an argument. -/
def Command.offers? (c : Command) (args : List String) (word : String) :
    Option (List (String × String)) :=
  match c.verb with
  | .help =>
    match findCommand hiddenCommands args with
    | .ok (topic, _) => some (startingWith word topic.childRows)
    | .error _ => some []
  | .completion | .script _ => some []
  | _ => none

/-- Completes a word of a command whose flags were read. -/
def Command.completeWord (c : Command) (spot : Spot) (a : Arguments) : Completion :=
  let flagsAllowed := a.dash.isNone
  let rest := if c.readsFlags then a.rest else spot.args
  if spot.flag.isNone && spot.word.startsWith "-" && !spot.word.contains '=' && flagsAllowed then
    { choices := startingWith spot.word ((c.openFlags a).flatMap Flag.rows), directive := .noFiles }
  else
    let below := if spot.flag.isNone && rest.isEmpty then c.childRows else []
    let directive := if below.isEmpty then .files else .noFiles
    let choices := startingWith spot.word below
    match if spot.flag.isSome && flagsAllowed then none else c.offers? rest spot.word with
    | some more => { choices := choices ++ more, directive := .noFiles }
    | none => { choices, directive }

/-- Words as a list is shown. -/
def shownWords (args : List String) : String := "[" ++ " ".intercalate args ++ "]"

/-- Completes the last word of a line. -/
def complete (line : List String) : Completion :=
  let before := line.dropLast
  match findCommand hiddenCommands before with
  | .error _ => { fault := some ("unable to find a command for arguments: " ++ shownWords before) }
  | .ok (c, args) =>
    let spot := c.spot args (line.getLastD "")
    match if c.readsFlags then readArguments c.allFlags {} spot.args else .ok {} with
    | .error f =>
      { fault := some ("Error while parsing flags from args " ++ shownWords spot.args ++ ": " ++ f.message) }
    | .ok a =>
      if spot.fault.isSome && a.dash.isNone then { fault := spot.fault }
      else if a.has "help" || (c.verb == .root && a.has "version") then { directive := .noFiles }
      else c.completeWord spot a

/-- Answers a shell: a line for each choice, described or not, and what else to do. -/
def runComplete (described : Bool) (line : List String) : CliM Unit := do
  let r := complete line
  if let some m := r.fault then warn ("[Debug] Error: " ++ m ++ "\n")
  put (String.join (r.choices.map fun (choice, about) =>
    choice ++ (if described then "\t" ++ about else "") ++ "\n"))
  put (":" ++ r.directive.code ++ "\n")
  warn ("Completion ended with directive: " ++ r.directive.name ++ "\n")

end PineLang.Cli
