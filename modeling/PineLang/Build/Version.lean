import PineLang.Text.Colour

/-!
# The version of the compiler
-/
namespace PineLang

/-- The version that this compiler reports. -/
def compilerVersion : String := "0.1.0-dev"

/-- What is known about a build of the compiler. -/
structure BuildInfo where
  version : String := compilerVersion
  commit : String := ""
  date : String := ""
  deriving DecidableEq, Repr

namespace BuildInfo

/-- Splits at the first occurrence of a character; the second part is empty if there is none. -/
def cut (c : Char) (s : String) : String × String :=
  (String.ofList (s.toList.takeWhile (· != c)), String.ofList ((s.toList.dropWhile (· != c)).drop 1))

/-- The version with a colour for each of its three numbers. What follows a dash has none, and
    neither has a version of another form. -/
def coloured (b : BuildInfo) (on : Bool) : String :=
  let (core, rest) := cut '-' b.version
  match core.splitOn "." with
  | major :: minor :: patch =>
    if patch.isEmpty then b.version
    else
      Text.boldIn on .yellow major ++ "." ++ Text.boldIn on .green minor ++ "." ++
        Text.boldIn on .blue (".".intercalate patch) ++ if rest.isEmpty then "" else "-" ++ rest
  | _ => b.version

/-- The version and what else is known of the build, a line each. -/
def banner (b : BuildInfo) (on : Bool) : String :=
  "pinec " ++ b.coloured on ++ "\n" ++
    (if b.commit.isEmpty then "" else "commit: " ++ b.commit ++ "\n") ++
    (if b.date.isEmpty then "" else "built:  " ++ b.date ++ "\n")

end BuildInfo

end PineLang
