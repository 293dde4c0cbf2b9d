import PineLang.Text.Quoted

/-!
# Modes of display

Colours and the progress view are on, off, or on where there is a terminal.
-/
namespace PineLang

/-- When something is displayed. -/
inductive Mode where
  | auto | on | off
  deriving DecidableEq, Repr

namespace Mode

/-- The word for a mode. -/
def text : Mode → String
  | auto => "auto"
  | on => "on"
  | off => "off"

/-- The mode of a word; no word is `auto`. -/
def ofText? : String → Option Mode
  | "auto" | "" => some auto
  | "on" => some on
  | "off" => some off
  | _ => none

/-- What is said about a word for no mode. -/
def fault (s : String) : String :=
  "invalid mode " ++ Text.quoted s ++ " (expected auto, on or off)"

/-- The mode of a word, or what is said about it. -/
def read (s : String) : Except String Mode :=
  match ofText? s with
  | some m => .ok m
  | none => .error (fault s)

/-- Whether the mode asks for display. -/
def isEnabled (m : Mode) (isTerminal : Bool) : Bool :=
  match m with
  | auto => isTerminal
  | on => true
  | off => false

end Mode

end PineLang
