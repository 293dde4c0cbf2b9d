import PineLang.Build.Version
import PineLang.Cli.Completion
import PineLang.Cli.Projects
import PineLang.Cli.Sources

/-!
# Calls

A call of the program with arguments: the command is found, its flags are read, and it runs. What
goes wrong is said in one line beside the output.
-/
namespace PineLang.Cli

/-- A text between back quotes, or between double quotes if it cannot stand so. -/
def topicText (s : String) : String :=
  if s.toList.all fun c => c != '\x60' && (c == '\t' || Text.isPrintable c) then "`" ++ s ++ "`"
  else Text.quoted s

/-- Shows help about the command that arguments name. Where they name none, it says how the program
    is used. -/
def runHelp (args : List String) : CliM Unit :=
  match findCommand [] args with
  | .ok (c, _) => put c.helpText
  | .error _ =>
    warn ("Unknown help topic [" ++ " ".intercalate (args.map topicText) ++ "]\n" ++
      rootCommand.usageText)

/-- Shows what is known about the build of the program. -/
def runVersion (a : Arguments) : CliM Unit := do
  if a.isOn "short" then put (compilerVersion ++ "\n")
  else
    let on := ((Mode.ofText? (a.text "color" "auto")).map (·.isEnabled false)).getD false
    put (({} : BuildInfo).banner on)

/-- Runs a command with its arguments. -/
def Command.run (e : Environment) (c : Command) (a : Arguments) : CliM Unit :=
  match c.verb with
  | .tokenize => runTokenize a (a.rest.headD "")
  | .parse => runParse e a (a.rest.headD "")
  | .fmt => runFmt a (a.rest.headD "")
  | .build => runBuild e a false
  | .run => runBuild e a true
  | .clean => runClean e a
  | .version => runVersion a
  | .help => runHelp a.rest
  | .complete described => runComplete described a.rest
  | .script _ => return ()
  | .root | .completion => return ()

/-- Finds the command, reads its flags, and runs it. Help comes before everything else but faults
    of the flags, and the number of arguments is looked at before the flags take effect. -/
def call (e : Environment) (args : List String) : CliM Unit := do
  let (c, args) ← orFail id (findCommand hiddenCommands args)
  let a ← if c.readsFlags then orFail FlagFault.message (readArguments c.allFlags {} args)
    else pure { rest := args }
  if a.isOn "help" then put c.helpText
  else if c.verb == .root && a.isOn "version" then
    put (programName ++ " version " ++ compilerVersion ++ "\n")
  else if !c.isRunnable then put c.helpText
  else
    if let some m := c.arityFault? a.rest then failWith m
    setUp a
    if let some m := c.groupFault? a then failWith m
    c.run e a

/-- What a call leaves; the status of a program that a signal ended is negative. -/
structure Ending where
  status : Int
  out : Bytes
  err : Bytes
  disk : Disk

/-- Calls the program on a disk. -/
def callOn (e : Environment) (disk : Disk) (args : List String) : Ending :=
  let (r, s) := (call e args).run { disk }
  let s := s.endProfiles
  match r with
  | .ok _ => ⟨0, s.out, s.err, s.disk⟩
  | .error .reported => ⟨1, s.out, s.err, s.disk⟩
  | .error (.status code) => ⟨code, s.out, s.err, s.disk⟩
  | .error (.message m) => ⟨1, s.out, s.err ++ utf8 "error: " ++ m ++ utf8 "\n", s.disk⟩

end PineLang.Cli
