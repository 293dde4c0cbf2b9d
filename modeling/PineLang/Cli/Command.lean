import PineLang.Check.Suggest
import PineLang.Cli.Flag

/-!
# Commands

The commands of the command line with their flags, and how the command that is meant is found among
the arguments.
-/
namespace PineLang.Cli

/-- The name of the program. -/
def programName : String := "pinec"

/-- The shells that words can be completed in. -/
inductive Dialect where
  | bash | fish | powershell | zsh
  deriving DecidableEq, Repr

/-- The name of a shell. -/
def Dialect.name : Dialect → String
  | bash => "bash"
  | fish => "fish"
  | powershell => "powershell"
  | zsh => "zsh"

/-- The commands. `script` prints a script for a shell, and `complete` answers such a script. -/
inductive Verb where
  | root | tokenize | parse | fmt | build | run | clean | version | help | completion
  | script (shell : Dialect)
  | complete (described : Bool)
  deriving DecidableEq, Repr

/-- How many arguments a command takes besides flags. -/
inductive Arity where
  | any
  | none
  | exactly (n : Nat)
  | atLeast (n : Nat)
  | atMost (n : Nat)
  deriving DecidableEq, Repr

/-- What is known about a command. `use` is its name and how it is called; `calledAs` is the name it
    is called by, if that is another. -/
structure Command where
  verb : Verb
  use : String
  calledAs : Option String := none
  short : String
  long : String := ""
  arity : Arity := .any
  flags : List Flag := []
  exclusive : List String := []
  deriving Repr

/-- The name of a command. -/
def Command.name (c : Command) : String := (c.use.splitOn " ").headD ""

/-- What stands before the name of a command. -/
def Command.parentPath (c : Command) : String :=
  match c.verb with
  | .script _ => programName ++ " completion"
  | _ => programName

/-- How a command is called, with the program before it. -/
def Command.path (c : Command) : String :=
  if c.verb == .root then programName else c.parentPath ++ " " ++ c.name

/-- A command is called by a name. -/
def Command.answersTo (c : Command) (name : String) : Bool := c.calledAs.getD c.name == name

/-- The flags that every command takes. -/
def globalFlags : List Flag := [
  { name := "color", kind := .text "auto", usage := "colorize output (auto|on|off)" },
  { name := "quiet", kind := .switch, usage := "suppress non-essential output" },
  { name := "timings", kind := .switch, usage := "show timing information" },
  { name := "max-diagnostics", kind := .number 100, usage := "maximum number of diagnostics to show" },
  { name := "trace", kind := .text "", usage := "write trace events to file (- for stderr)" },
  { name := "trace-level", kind := .text "off", usage := "trace level (off|error|phase|detail|debug)" },
  { name := "trace-format", kind := .text "auto", usage := "trace encoding (auto|text|json)" },
  { name := "cpuprofile", kind := .text "", usage := "write a CPU profile of pinec to file" },
  { name := "memprofile", kind := .text "", usage := "write a heap profile of pinec to file" },
  { name := "exec-trace", kind := .text "", usage := "write a Go execution trace of pinec to file" }]

/-- The flags of commands that build. -/
def buildFlags : List Flag := [
  { name := "path", short := some 'p', kind := .text "", usage := "path to the source file or package" },
  { name := "emit-irs", short := some 'd', kind := .switch,
    usage := "also write the parsed AST to the build directory" },
  { name := "compiler", kind := .text "", usage := "C compiler (gcc|clang)" },
  { name := "release", kind := .switch, usage := "optimize with -O3" },
  { name := "unsafe-release", kind := .switch, usage := "optimize with -Ofast" },
  { name := "output", short := some 'o', kind := .text "", usage := "executable name" },
  { name := "ui", kind := .text "auto", usage := "progress view (auto|on|off)" },
  { name := "no-cache", kind := .switch, usage := "do not read or write the generated C cache" }]

/-- The program itself. -/
def rootCommand : Command where
  verb := .root
  use := programName
  short := "pine language compiler"
  long := "pinec translates pine programs to C and builds them with gcc or clang"

/-- The commands of the program, in the order they are suggested. -/
def commands : List Command := [
  { verb := .tokenize
    use := "tokenize [flags] file.pn"
    short := "Tokenize a pine source file"
    long := "Tokenize breaks a pine source file into tokens, including INDENT and DEDENT"
    arity := .exactly 1
    flags := [{ name := "format", kind := .text "pretty", usage := "output format (pretty|json|yaml)" }] },
  { verb := .parse
    use := "parse [flags] <file.pn|directory>"
    short := "Parse a pine source file or directory"
    long := "Parse checks the syntax of a pine file or of every *.pn file in a directory and optionally dumps the AST"
    arity := .exactly 1
    flags := [
      { name := "dump", kind := .switch, usage := "print the AST" },
      { name := "jobs", kind := .number 0,
        usage := "max parallel workers for directory processing (0=auto)" }] },
  { verb := .fmt
    use := "fmt [flags] file.pn"
    short := "Print a pine source file in canonical layout"
    long := "Fmt re-prints a pine source file from its syntax tree. Comments are not preserved."
    arity := .exactly 1
    flags := [
      { name := "write", short := some 'w', kind := .switch, usage := "write the result back to the file" },
      { name := "diff", kind := .switch,
        usage := "print a unified diff instead of the formatted source" }]
    exclusive := ["write", "diff"] },
  { verb := .build
    use := "build [flags] [file.pn] [-- args...]"
    short := "Build a pine program"
    long := "Build translates a pine program to C and compiles it with gcc or clang.\nWithout a file the program is described by pine.toml."
    flags := buildFlags ++
      [{ name := "run", short := some 'r', kind := .switch, usage := "run the program after compiling" }]
    exclusive := ["release", "unsafe-release"] },
  { verb := .run
    use := "run [flags] [file.pn] [-- args...]"
    short := "Build and run a pine program"
    flags := buildFlags
    exclusive := ["release", "unsafe-release"] },
  { verb := .clean
    use := "clean [path]"
    short := "Remove the .build directory"
    long := "Remove the .build directory of the current directory or of the pine.toml project, optionally with the C cache."
    arity := .atMost 1
    flags := [{ name := "cache", kind := .switch, usage := "also drop the generated C cache" }] },
  { verb := .version
    use := "version"
    short := "Show pinec build information"
    arity := .none
    flags := [{ name := "short", kind := .switch, usage := "print only the version number" }] },
  { verb := .help
    use := "help [command]"
    short := "Help about any command"
    long := "Help provides help for any command in the application.\nSimply type pinec help [path to command] for full details." },
  { verb := .completion
    use := "completion"
    short := "Generate the autocompletion script for the specified shell"
    long := "Generate the autocompletion script for pinec for the specified shell.\nSee each sub-command's help for details on how to use the generated script.\n"
    arity := .none }]

/-- What is said about the script for a shell, line by line. -/
def Dialect.about : Dialect → List String
  | bash => ["Generate the autocompletion script for the bash shell.",
    "",
    "This script depends on the 'bash-completion' package.",
    "If it is not installed already, you can install it via your OS's package manager.",
    "",
    "To load completions in your current shell session:",
    "",
    "\tsource <(pinec completion bash)",
    "",
    "To load completions for every new session, execute once:",
    "",
    "#### Linux:",
    "",
    "\tpinec completion bash > /etc/bash_completion.d/pinec",
    "",
    "#### macOS:",
    "",
    "\tpinec completion bash > $(brew --prefix)/etc/bash_completion.d/pinec",
    "",
    "You will need to start a new shell for this setup to take effect."]
  | fish => ["Generate the autocompletion script for the fish shell.",
    "",
    "To load completions in your current shell session:",
    "",
    "\tpinec completion fish | source",
    "",
    "To load completions for every new session, execute once:",
    "",
    "\tpinec completion fish > ~/.config/fish/completions/pinec.fish",
    "",
    "You will need to start a new shell for this setup to take effect."]
  | powershell => ["Generate the autocompletion script for powershell.",
    "",
    "To load completions in your current shell session:",
    "",
    "\tpinec completion powershell | Out-String | Invoke-Expression",
    "",
    "To load completions for every new session, add the output of the above command",
    "to your powershell profile."]
  | zsh => ["Generate the autocompletion script for the zsh shell.",
    "",
    "If shell completion is not already enabled in your environment you will need",
    "to enable it.  You can execute the following once:",
    "",
    "\techo \"autoload -U compinit; compinit\" >> ~/.zshrc",
    "",
    "To load completions in your current shell session:",
    "",
    "\tsource <(pinec completion zsh)",
    "",
    "To load completions for every new session, execute once:",
    "",
    "#### Linux:",
    "",
    "\tpinec completion zsh > \"$\x7bfpath[1]\x7d/_pinec\"",
    "",
    "#### macOS:",
    "",
    "\tpinec completion zsh > $(brew --prefix)/share/zsh/site-functions/_pinec",
    "",
    "You will need to start a new shell for this setup to take effect."]

/-- The command that prints the script for a shell. -/
def scriptCommand (shell : Dialect) : Command where
  verb := .script shell
  use := shell.name
  short := "Generate the autocompletion script for " ++ shell.name
  long := "\n".intercalate shell.about
  arity := .none
  flags := [{ name := "no-descriptions", kind := .switch, usage := "disable completion descriptions" }]

/-- The commands that print scripts. -/
def scriptCommands : List Command := [.bash, .fish, .powershell, .zsh].map scriptCommand

/-- The command that the scripts call, with or without descriptions. It is not shown, and reads no
    flags. -/
def completeCommand (described : Bool) : Command where
  verb := .complete described
  use := "__complete [command-line]"
  calledAs := if described then none else some "__completeNoDesc"
  short := "Request shell completion choices for the specified command-line"
  arity := .atLeast 1

/-- The commands that are not shown. -/
def hiddenCommands : List Command := [completeCommand true, completeCommand false]

/-- The commands below a command, without those that are not shown. -/
def Command.children (c : Command) : List Command :=
  match c.verb with
  | .root => commands
  | .completion => scriptCommands
  | _ => []

/-- The command does something by itself; the others show their help. -/
def Command.isRunnable (c : Command) : Bool := c.verb != .root && c.verb != .completion

/-- The flag that asks for help about a command. -/
def helpFlag (c : Command) : Flag :=
  { name := "help", short := some 'h', kind := .switch, usage := "help for " ++ c.name }

/-- The flag that asks for the version of the program. -/
def versionFlag : Flag :=
  { name := "version", short := some 'v', kind := .switch, usage := "version for " ++ programName }

/-- The flags of a command itself. -/
def Command.ownFlags (c : Command) : List Flag :=
  c.flags ++ [helpFlag c] ++ if c.verb == .root then [versionFlag] else []

/-- All flags that a command takes. -/
def Command.allFlags (c : Command) : List Flag := c.ownFlags ++ globalFlags

/-! ## Finding the command -/

/-- An argument is a flag whose value is the next argument. A flag that is not known counts as
    one. -/
def takesNext (flags : List Flag) (arg : String) : Bool :=
  let isSwitch (p : Flag → Bool) : Bool := (flags.find? p).any fun f => f.kind == .switch
  if arg.contains '=' then false
  else match arg.toList with
    | '-' :: '-' :: cs => !(isSwitch fun f => f.name == String.ofList cs)
    | ['-', c] => c.toNat < 128 && !(isSwitch fun f => f.short == some c)
    | _ => false

/-- An argument is a flag or a group of flags; a dash alone is not. -/
def isFlagArg (arg : String) : Bool :=
  match arg.toList with
  | '-' :: '-' :: cs => !cs.isEmpty
  | '-' :: cs => !cs.isEmpty
  | _ => false

/-- The arguments that are no flags and no values of flags. -/
def plainArgs (flags : List Flag) : List String → List String
  | [] => []
  | arg :: more =>
    if arg == "--" then []
    else if takesNext flags arg then
      match more with
      | _ :: next :: rest => plainArgs flags (next :: rest)
      | _ => []
    else if arg.isEmpty || arg.startsWith "-" then plainArgs flags more
    else arg :: plainArgs flags more

/-- The arguments without the first one that names the command. -/
def dropName (flags : List Flag) (name : String) : List String → List String
  | [] => []
  | arg :: more =>
    if arg == "--" then arg :: more
    else if takesNext flags arg then
      match more with
      | value :: rest => arg :: value :: dropName flags name rest
      | [] => [arg]
    else if arg == name && !(arg.startsWith "-") then more
    else arg :: dropName flags name more

/-- The bytes of a name in lower case, a character each. -/
def lowBytes (s : String) : String :=
  String.ofList ((utf8 s).map fun b => (Char.ofNat b.toNat).toLower)

/-- What stands in for a name that is no command: the commands it is close to, or that start with
    it. -/
def suggestions (name : String) : List String :=
  ((commands.filter fun c => c.verb != .help).map Command.name).filter fun n =>
    Check.editDistance (lowBytes name) (lowBytes n) ≤ 2 ||
      (lowBytes name).toList.isPrefixOf (lowBytes n).toList

/-- What is said about a name that is no command. -/
def unknownCommand (name : String) : String :=
  "unknown command " ++ Text.quoted name ++ " for " ++ Text.quoted programName ++
    match suggestions name with
    | [] => ""
    | ns => "\n\nDid you mean this?\n" ++ String.join (ns.map fun n => "\t" ++ n ++ "\n")

/-- One step from a command to the one below it that arguments name; the name of that one is taken
    out of the arguments. `hidden` are commands of the program besides those shown. -/
def Command.descend (hidden : List Command) (c : Command) (args : List String) :
    Option (Command × List String) :=
  match plainArgs c.allFlags args with
  | [] => none
  | name :: _ =>
    let below := c.children ++ if c.verb == .root then hidden else []
    (below.find? fun d => d.answersTo name).map fun d => (d, dropName c.allFlags name args)

/-- The command that arguments name, with the arguments that are left for it; or what is said about
    the name that is no command. Commands are nested two deep. -/
def findCommand (hidden : List Command) (args : List String) : Except String (Command × List String) :=
  match rootCommand.descend hidden args with
  | some (c, args) => .ok ((c.descend hidden args).getD (c, args))
  | none =>
    match plainArgs rootCommand.allFlags args with
    | [] => .ok (rootCommand, args)
    | name :: _ => .error (unknownCommand name)

/-- What is wrong with the number of arguments of a command. -/
def Command.arityFault? (c : Command) (rest : List String) : Option String :=
  let n := rest.length
  match c.arity with
  | .any => none
  | .none => rest.head?.map fun a => "unknown command " ++ Text.quoted a ++ " for " ++ Text.quoted c.path
  | .exactly m => if n = m then none else some s!"accepts {m} arg(s), received {n}"
  | .atLeast m => if n ≥ m then none else some s!"requires at least {m} arg(s), only received {n}"
  | .atMost m => if n ≤ m then none else some s!"accepts at most {m} arg(s), received {n}"

/-- What is wrong with flags that exclude each other. -/
def Command.groupFault? (c : Command) (a : Arguments) : Option String :=
  let set := (c.exclusive.filter a.has).mergeSort fun x y => x ≤ y
  if set.length ≤ 1 then none
  else some ("if any flags in the group [" ++ " ".intercalate c.exclusive ++
    "] are set none of the others can be; [" ++ " ".intercalate set ++ "] were all set")

/-! ## Help

The text that is shown about a command: what it does, how it is called, its flags and the flags of
all commands. -/

/-- Leaves out white space at the end. -/
def trimRight (s : String) : String :=
  String.ofList (s.toList.reverse.dropWhile Char.isWhitespace).reverse

/-- Fills a text up with spaces. -/
def padRight (width : Nat) (s : String) : String := s ++ "".pushn ' ' (width - s.length)

/-- The word for what a flag takes. -/
def FlagKind.word : FlagKind → String
  | switch => ""
  | text _ => " string"
  | number _ => " int"

/-- What a flag is unless it is given, where that is worth saying. -/
def FlagKind.startText : FlagKind → String
  | switch => ""
  | text s => if s.isEmpty then "" else " (default " ++ Text.quoted s ++ ")"
  | number n => if n = 0 then "" else " (default " ++ toString n ++ ")"

/-- A flag as it is given. -/
def Flag.form (f : Flag) : String :=
  (match f.short with
    | some c => "  -" ++ String.singleton c ++ ", --"
    | none => "      --") ++ f.name ++ f.kind.word

/-- Flags in order, a line each, with what they do in one column. -/
def flagTable (flags : List Flag) : String :=
  let sorted := flags.mergeSort fun a b => a.name ≤ b.name
  let width := (sorted.map fun f => f.form.length).foldl max 0
  String.join (sorted.map fun f =>
    padRight width f.form ++ "   " ++ f.usage ++ f.kind.startText ++ "\n")

/-- Commands with what they do. -/
def commandTable (rows : List (String × String)) : String :=
  String.join (rows.map fun (name, short) => "\n  " ++ padRight 11 name ++ " " ++ short)

/-- The commands below a command by name, with what they do. -/
def Command.childRows (c : Command) : List (String × String) :=
  (c.children.map fun d => (d.name, d.short)).mergeSort fun a b => a.1 ≤ b.1

/-- How a command is called. -/
def Command.useLine (c : Command) : String :=
  let line := c.parentPath ++ " " ++ c.use
  if c.verb == .script .bash || (line.splitOn "[flags]").length > 1 then line else line ++ " [flags]"

/-- How a command is used. The flags of all commands stand apart, but for the program itself. -/
def Command.usageText (c : Command) : String :=
  "Usage:" ++
    (if c.isRunnable then "\n  " ++ c.useLine else "") ++
    (if c.children.isEmpty then "" else "\n  " ++ c.path ++ " [command]") ++
    (if c.children.isEmpty then "" else "\n\nAvailable Commands:" ++ commandTable c.childRows) ++
    "\n\nFlags:\n" ++
    trimRight (flagTable (if c.verb == .root then c.allFlags else c.ownFlags)) ++
    (if c.verb == .root then "" else "\n\nGlobal Flags:\n" ++ trimRight (flagTable globalFlags)) ++
    (if c.children.isEmpty then ""
      else "\n\nUse \"" ++ c.path ++ " [command] --help\" for more information about a command.") ++
    "\n"

/-- All that is said about a command. -/
def Command.helpText (c : Command) : String :=
  trimRight (if c.long.isEmpty then c.short else c.long) ++ "\n\n" ++
    c.usageText

end PineLang.Cli
