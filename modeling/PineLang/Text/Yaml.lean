import PineLang.Number.Double
import PineLang.Text.Quoted
import PineLang.Text.Timestamp

/-!
# YAML scalars

Strings as scalars of a YAML document. A string is written plain where no reader could take it for
anything else; a string with line breaks is written as a literal block where it can be.
-/
namespace PineLang.Text.Yaml

/-! ## What plain text would be read as -/

/-- Takes an optional sign off. -/
def splitSign : List Char → Option Char × List Char
  | '+' :: rest => (some '+', rest)
  | '-' :: rest => (some '-', rest)
  | cs => (none, cs)

/-- The value of a digit in any base up to sixteen. -/
def digitValue (c : Char) : Nat :=
  if c.isDigit then c.toNat - 48
  else if 'a' ≤ c && c ≤ 'f' then c.toNat - 87
  else if 'A' ≤ c && c ≤ 'F' then c.toNat - 55
  else 99

/-- The value of digits in a base. -/
def digits? (base : Nat) (cs : List Char) : Option Nat :=
  if cs.all fun c => digitValue c < base then
    some (cs.foldl (fun n c => n * base + digitValue c) 0)
  else none

/-- The number fits in sixty-four bits; a sign makes it a signed number. -/
def fits (sign : Option Char) (n : Nat) : Bool :=
  match sign with
  | some '-' => n ≤ 0x8000000000000000
  | some _ => n < 0x8000000000000000
  | none => n < 0x10000000000000000

/-- Digits of a given base, with an optional sign. -/
def isIntegerOf (base : Nat) (cs : List Char) : Bool :=
  let (sign, ds) := splitSign cs
  !ds.isEmpty && ((digits? base ds).map (fits sign)).getD false

/-- An integer whose start tells the base: `0b`, `0o`, `0x`, or `0` for octal. -/
def isInteger (cs : List Char) : Bool :=
  let (sign, ds) := splitSign cs
  let read (base : Nat) (ds : List Char) := ((digits? base ds).map (fits sign)).getD false
  match ds with
  | [] => false
  | '0' :: m :: d :: rest =>
    match m.toLower with
    | 'b' => read 2 (d :: rest)
    | 'o' => read 8 (d :: rest)
    | 'x' => read 16 (d :: rest)
    | _ => read 8 (m :: d :: rest)
  | '0' :: rest => read 8 rest
  | _ => read 10 ds

/-- An exponent, or nothing; the answer is its value. -/
def exponent? : List Char → Option Int
  | [] => some 0
  | e :: rest =>
    let (sign, ds) := splitSign rest
    if (e == 'e' || e == 'E') && !ds.isEmpty && ds.all Char.isDigit then
      let n : Int := Double.digitsValue ds
      some (if sign == some '-' then -n else n)
    else none

/-- The digits, with the point before the last `fraction` of them and scaled by a power of ten,
    stand for a finite double. -/
def isFiniteDecimal (whole fraction : List Char) (exponent : Int) : Bool :=
  let ds := (whole ++ fraction).dropWhile (· == '0')
  let magnitude : Int := ds.length - fraction.length + exponent
  let shift : Int := exponent - fraction.length
  let n := Double.digitsValue ds
  if ds.isEmpty || magnitude < 300 then true
  else if magnitude > 320 then false
  else (Double.ofRatio? (n * Nat.pow 10 shift.toNat) (Nat.pow 10 (-shift).toNat)).isSome

/-- A decimal fraction: digits with an optional point and exponent. -/
def isFloat (cs : List Char) : Bool :=
  let (_, cs) := splitSign cs
  let whole := cs.takeWhile Char.isDigit
  let rest := cs.dropWhile Char.isDigit
  let (fraction, rest, hasPoint) := match rest with
    | '.' :: r => (r.takeWhile Char.isDigit, r.dropWhile Char.isDigit, true)
    | _ => ([], rest, false)
  if whole.isEmpty && (fraction.isEmpty || !hasPoint) then false
  else ((exponent? rest).map (isFiniteDecimal whole fraction)).getD false

/-- Every underscore stands between two digits. -/
def underscoresBetweenDigits (before : Char) : List Char → Bool
  | [] => true
  | '_' :: rest =>
    before.isDigit && (rest.head?.map Char.isDigit).getD false && underscoresBetweenDigits '_' rest
  | c :: rest => underscoresBetweenDigits c rest

/-- Numbers in base sixty, as `1:30`. -/
def isBase60 (cs : List Char) : Bool :=
  let (_, cs) := splitSign cs
  let isPlace := fun c : Char => c.isDigit || c == '_'
  let rest := cs.dropWhile isPlace
  let parts := (String.ofList (rest.takeWhile (· != '.'))).splitOn ":"
  let tail := rest.dropWhile (· != '.')
  (cs.head?.map Char.isDigit).getD false && rest.head? == some ':' &&
    (parts.drop 1).all (fun p => match p.toList with
      | [d] => d.isDigit
      | [t, d] => '0' ≤ t && t ≤ '5' && d.isDigit
      | _ => false) &&
    (tail.drop 1).all isPlace

/-- Words that stand for booleans, nulls and special numbers. -/
def specialWords : List String :=
  ["true", "True", "TRUE", "false", "False", "FALSE", "", "~", "null", "Null", "NULL",
   ".nan", ".NaN", ".NAN", ".inf", ".Inf", ".INF", "+.inf", "+.Inf", "+.INF",
   "-.inf", "-.Inf", "-.INF"]

/-- Words that older readers take for booleans. -/
def oldBooleans : List String :=
  ["y", "Y", "yes", "Yes", "YES", "on", "On", "ON",
   "n", "N", "no", "No", "NO", "off", "Off", "OFF"]

/-- Plain text that starts like a number and is one, or a date. -/
def isNumberOrDate (cs : List Char) : Bool :=
  let bare := cs.filter (· != '_')
  Timestamp.isTimestamp cs || isInteger bare || isFloat bare ||
    match bare with
    | '0' :: 'b' :: rest => isIntegerOf 2 rest
    | '0' :: 'o' :: rest => isIntegerOf 8 rest
    | _ => false

/-- Plain text is read as this string and nothing else. -/
def readsAsString (s : String) : Bool :=
  let cs := s.toList
  if specialWords.contains s || oldBooleans.contains s then false
  else match cs with
    | [] => false
    | '.' :: rest =>
      !(underscoresBetweenDigits '.' rest && isFloat (cs.filter (· != '_')))
    | c :: _ =>
      if c == '+' || c == '-' || c.isDigit then !(isNumberOrDate cs || isBase60 cs) else true

/-! ## What the marks of the format allow -/

/-- A line break. -/
def isBreak (c : Char) : Bool :=
  c == '\n' || c == '\r' || c.toNat == 0x85 || c.toNat == 0x2028 || c.toNat == 0x2029

/-- A character that can stand in a document as it is. -/
def isPrintable (c : Char) : Bool :=
  let n := c.toNat
  n == 0x0A || (0x20 ≤ n && n ≤ 0x7E) || (0xA0 ≤ n && n ≤ 0xFFFD && n != 0xFEFF)

/-- A space or a tab. -/
def isBlank (c : Char) : Bool := c == ' ' || c == '\t'

/-- Some character stands directly before another. -/
def hasPair (p q : Char → Bool) : List Char → Bool
  | a :: b :: rest => (p a && q b) || hasPair p q (b :: rest)
  | _ => false

/-- A mark that opens something else than a plain scalar. -/
def opensOther : List Char → Bool
  | '-' :: '-' :: '-' :: _ => true
  | '.' :: '.' :: '.' :: _ => true
  | c :: rest =>
    let alone := (rest.head?.map isBlank).getD true
    if "#,[]\x7b\x7d&*!|>'\"%@`".toList.contains c then true
    else if c == '?' || c == ':' || c == '-' then alone
    else false
  | [] => false

/-- A mark inside that ends a plain scalar: a colon before a blank or the end, or a number sign
    after white space. -/
def endsPlain (before : Char) : List Char → Bool
  | [] => false
  | c :: rest =>
    (c == ':' && (rest.head?.map isBlank).getD true) ||
      (c == '#' && (isBlank before || isBreak before || before.toNat == 0)) ||
      endsPlain c rest

/-- Tabs and characters that only an escape can write. -/
def needsEscape (c : Char) : Bool := c == '\t' || !isPrintable c

/-- How a scalar is written. -/
inductive Style where
  | plain | single | double | literal
  deriving DecidableEq, Repr

/-- The style of a string. -/
def style (s : String) : Style :=
  let cs := s.toList
  let isSpace := fun c : Char => c == ' '
  let spaceBreak := hasPair isSpace isBreak cs
  let breakSpace := hasPair isBreak isSpace cs
  let special := cs.any fun c => c != '\t' && !isPrintable c
  if cs.contains '\n' then
    if cs.getLast? == some ' ' || spaceBreak || special then .double else .literal
  else if !readsAsString s then .double
  else
    let plain := !(cs.any isBreak) && !(cs.any needsEscape) && cs.head? != some ' ' &&
      cs.getLast? != some ' ' && !opensOther cs && !endsPlain (cs.headD ' ') (cs.drop 1)
    let single := !breakSpace && !spaceBreak && !(cs.any needsEscape)
    if plain then .plain else if single then .single else .double

/-! ## Writing -/

/-- One character between double quotes. With `always` a character that could stand as it is gets
    an escape too. -/
def escape (always : Bool) (c : Char) : String :=
  if !always && isPrintable c && !isBreak c && c != '"' && c != '\\' then String.singleton c
  else match c.toNat with
    | 0x00 => "\\0"
    | 0x07 => "\\a"
    | 0x08 => "\\b"
    | 0x09 => "\\t"
    | 0x0A => "\\n"
    | 0x0B => "\\v"
    | 0x0C => "\\f"
    | 0x0D => "\\r"
    | 0x1B => "\\e"
    | 0x22 => "\\\""
    | 0x5C => "\\\\"
    | 0x85 => "\\N"
    | 0xA0 => "\\_"
    | 0x2028 => "\\L"
    | 0x2029 => "\\P"
    | n =>
      if n ≤ 0xFF then "\\x" ++ (hexPadded 2 n).toUpper
      else if n ≤ 0xFFFF then "\\u" ++ (hexPadded 4 n).toUpper
      else "\\U" ++ (hexPadded 8 n).toUpper

/-- The text starts with a byte order mark: then every character of it is escaped. -/
def startsWithMark (s : String) : Bool := (s.toList.head?.map Char.toNat) == some 0xFEFF

/-- The characters, with `indent` spaces at the start of every line that is not empty.
    `atStart` says that a line starts. -/
def indentLines (indent : Nat) (atStart : Bool) : List Char → String
  | [] => ""
  | c :: rest =>
    if isBreak c then String.singleton c ++ indentLines indent true rest
    else (if atStart then "".pushn ' ' indent else "") ++ String.singleton c ++
      indentLines indent false rest

/-- What follows the bar of a literal block: an explicit indentation if the text starts with white
    space, and how the line breaks at the end are kept. -/
def literalHints (cs : List Char) : String :=
  let opening := match cs.head? with
    | some c => if c == ' ' || isBreak c then "2" else ""
    | none => ""
  let closing := match cs.reverse with
    | [] => "-"
    | [c] => if isBreak c then "+" else "-"
    | c :: d :: _ => if !isBreak c then "-" else if isBreak d then "+" else ""
  opening ++ closing

/-- A literal block. A text that starts with a line break gets no line for it. -/
def literal (indent : Nat) (cs : List Char) : String :=
  let opening := if (cs.head?.map isBreak).getD false then "" else "\n"
  let closing := if (cs.getLast?.map isBreak).getD false then "" else "\n"
  "|" ++ literalHints cs ++ opening ++ indentLines indent true cs ++ closing

/-- A string as a scalar whose further lines are indented, with the line break after it. -/
def scalar (indent : Nat) (s : String) : String :=
  match style s with
  | .plain => s ++ "\n"
  | .single =>
    "'" ++ indentLines indent false (s.toList.flatMap fun c => if c == '\'' then [c, c] else [c]) ++
      "'\n"
  | .double => "\"" ++ String.join (s.toList.map (escape (startsWithMark s))) ++ "\"\n"
  | .literal => literal indent s.toList

end PineLang.Text.Yaml
