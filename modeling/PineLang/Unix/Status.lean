/-!
# How programs end

A program ends by itself with a code, or a signal ends it.
-/
namespace PineLang.Shell

/-- How a program ended. -/
inductive ExitStatus where
  | exited (code : Nat)
  | signaled (signal : Nat)
  deriving DecidableEq, Repr

/-- The signals by number, with their short names and what they mean. -/
def signals : List (Nat × String × String) := [
  (1, "HUP", "hangup"),
  (2, "INT", "interrupt"),
  (3, "QUIT", "quit"),
  (4, "ILL", "illegal instruction"),
  (5, "TRAP", "trace/breakpoint trap"),
  (6, "ABRT", "aborted"),
  (7, "BUS", "bus error"),
  (8, "FPE", "floating point exception"),
  (9, "KILL", "killed"),
  (10, "USR1", "user defined signal 1"),
  (11, "SEGV", "segmentation fault"),
  (12, "USR2", "user defined signal 2"),
  (13, "PIPE", "broken pipe"),
  (14, "ALRM", "alarm clock"),
  (15, "TERM", "terminated"),
  (17, "CHLD", "signal 17"),
  (18, "CONT", "signal 18"),
  (19, "STOP", "signal 19"),
  (20, "TSTP", "signal 20"),
  (21, "TTIN", "signal 21"),
  (22, "TTOU", "signal 22"),
  (23, "URG", "signal 23"),
  (24, "XCPU", "signal 24"),
  (25, "XFSZ", "signal 25"),
  (26, "VTALRM", "signal 26"),
  (27, "PROF", "signal 27"),
  (28, "WINCH", "signal 28"),
  (29, "IO", "signal 29"),
  (30, "PWR", "signal 30"),
  (31, "SYS", "signal 31")]

/-- The name of a signal: those from 34 on are counted from both ends, and one without a name is
    called by its number. -/
def signalName (n : Nat) : String :=
  match signals.find? fun x => x.1 == n with
  | some x => x.2.1
  | none =>
    if n < 34 || 64 < n then toString n
    else if n == 34 then "RTMIN"
    else if n < 50 then "RTMIN+" ++ toString (n - 34)
    else if n < 64 then "RTMAX-" ++ toString (64 - n)
    else "RTMAX"

/-- The greatest number of a signal. -/
def greatestSignal : Nat := 64

/-- The signal of a name or of a number; a name may be written small. -/
def signalOf? (s : String) : Option Nat :=
  if !s.isEmpty && s.toList.all Char.isDigit then
    let n := s.toNat?.getD 0
    if n ≤ greatestSignal then some n else none
  else (List.range (greatestSignal + 1)).find? fun n => n != 0 && signalName n == s.toUpper

/-- A signal that passes without effect on a program that does nothing about it. -/
def isHarmless (signal : Nat) : Bool := [0, 17, 18, 23, 28].contains signal

namespace ExitStatus

/-- The program ended well. -/
def isSuccess (s : ExitStatus) : Bool := s == exited 0

/-- The code of a program; one that a signal ended has none of its own. -/
def code : ExitStatus → Int
  | exited n => n
  | signaled _ => -1

/-- The code that a shell sees. -/
def shellCode : ExitStatus → Nat
  | exited n => n
  | signaled n => 128 + n

/-- What is said about a program that did not end well. -/
def text : ExitStatus → String
  | exited n => "exit status " ++ toString n
  | signaled n =>
    "signal: " ++ (((signals.find? fun x => x.1 == n).map (·.2.2)).getD ("signal " ++ toString n))

end ExitStatus

end PineLang.Shell
