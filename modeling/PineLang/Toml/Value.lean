import PineLang.Text.Quoted

/-!
# Values and keys of a TOML document
-/
namespace PineLang.Toml

/-- The parts of a dotted key, outermost first. -/
abbrev Key := List String

/-- A character of a key that needs no quotes. -/
def isBare (c : Char) : Bool := c.isAlphanum || c == '_' || c == '-'

/-- One character between the quotes of a key. -/
def quoteKeyChar (c : Char) : String :=
  if c == '"' then "\\\""
  else if c == '\\' then "\\\\"
  else if c == '\t' then "\\t"
  else if c == '\n' then "\\n"
  else if c == '\r' then "\\r"
  else if c.toNat == 8 then "\\b"
  else if c.toNat == 12 then "\\f"
  else if c.toNat < 0x20 || c.toNat == 0x7F then "\\u" ++ Text.hexPadded 4 c.toNat
  else String.singleton c

/-- One part of a key, in quotes where it has to be. -/
def partText (s : String) : String :=
  if s.isEmpty then "\"\""
  else if s.toList.all isBare then s
  else "\"" ++ String.join (s.toList.map quoteKeyChar) ++ "\""

/-- A key with dots between its parts. -/
def keyText (k : Key) : String := ".".intercalate (k.map partText)

/-- A value as it is written. The numbers and dates of a document keep their spelling. -/
inductive Value where
  | text (s : String)
  | integer (spelling : String)
  | float (spelling : String)
  | boolean (b : Bool)
  | time (spelling : String)
  | array (items : List Value)
  | inline (pairs : List (Key × Nat × Value))
  deriving Inhabited

/-- The name of a kind of value where it is expected to be another. -/
def Value.kindName : Value → String
  | text _ => "string"
  | integer _ => "int64"
  | float _ => "float64"
  | boolean _ => "bool"
  | time _ => "time.Time"
  | array _ => "[]interface \x7b\x7d"
  | inline _ => "map[string]interface \x7b\x7d"

/-- What is wrong with a document, the line where it shows, and the key that was read last. -/
structure Fault where
  line : Option Nat
  key : Key
  message : String
  deriving DecidableEq, Repr

/-- What is said about a fault. -/
def Fault.text (f : Fault) : String :=
  "toml: " ++
    (match f.line, f.key with
      | some n, [] => s!"line {n}: "
      | some n, k => s!"line {n} (last key " ++ Text.quoted (keyText k) ++ "): "
      | none, [] => ""
      | none, k => "(last key " ++ Text.quoted (keyText k) ++ "): ") ++ f.message

end PineLang.Toml
