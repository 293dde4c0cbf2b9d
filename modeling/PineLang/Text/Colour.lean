/-!
# Coloured text

Bold text in the basic colours of a terminal.
-/
namespace PineLang.Text

/-- The colours in use. -/
inductive Colour where
  | red | green | yellow | blue | cyan
  deriving DecidableEq, Repr

/-- The number a terminal knows a colour by. -/
def Colour.code : Colour → String
  | red => "31"
  | green => "32"
  | yellow => "33"
  | blue => "34"
  | cyan => "36"

/-- Bold text in a colour, where colours are on. -/
def boldIn (on : Bool) (c : Colour) (s : String) : String :=
  if on then "\x1b[" ++ c.code ++ ";1m" ++ s ++ "\x1b[0;22m" else s

/-- Bold text, where colours are on. -/
def bold (on : Bool) (s : String) : String := if on then "\x1b[1m" ++ s ++ "\x1b[22m" else s

end PineLang.Text
