import PineLang.Text.Quoted

/-!
# Flags

The flags of a command line and how arguments are read as flags: `--name value`, `--name=value`,
`-n value`, `-nvalue`, and switches, which take a value only after an equals sign.
-/
namespace PineLang.Cli

/-- What a flag takes, with what it is unless it is given. -/
inductive FlagKind where
  | switch
  | text (start : String)
  | number (start : Int)
  deriving DecidableEq, Repr

/-- A flag. -/
structure Flag where
  name : String
  short : Option Char := none
  kind : FlagKind
  usage : String
  deriving DecidableEq, Repr

/-- The value of a flag. -/
inductive FlagValue where
  | switch (b : Bool)
  | text (s : String)
  | number (n : Int)
  deriving DecidableEq, Repr

/-- Why arguments cannot be read. -/
inductive FlagFault where
  | badForm (arg : String)
  | unknown (name : String)
  | unknownShort (short : Char) (group : String)
  | noValue (name : String)
  | noShortValue (short : Char) (group : String)
  | badValue (value : String) (flag : Flag) (cause : String)
  deriving DecidableEq, Repr

/-- How a flag is named in messages. -/
def Flag.label (f : Flag) : String :=
  match f.short with
  | some c => "-" ++ String.singleton c ++ ", --" ++ f.name
  | none => "--" ++ f.name

/-- What a message shows of a short flag. A short flag is one byte, and a byte outside ASCII is
    shown as the byte that its own encoding starts with. -/
def shownShort (c : Char) : Char := if c.toNat < 0x80 then c else Char.ofNat 0xC3

/-- What is said about a fault. -/
def FlagFault.message : FlagFault → String
  | badForm arg => "bad flag syntax: " ++ arg
  | unknown name => "unknown flag: --" ++ name
  | unknownShort c group => "unknown shorthand flag: " ++ Text.quotedChar (shownShort c) ++ " in -" ++ group
  | noValue name => "flag needs an argument: --" ++ name
  | noShortValue c group => "flag needs an argument: " ++ Text.quotedChar c ++ " in -" ++ group
  | badValue value f cause =>
    "invalid argument " ++ Text.quoted value ++ " for " ++ Text.quoted f.label ++ " flag: " ++ cause

/-! ## Values -/

/-- The value of a word for a truth value. -/
def boolOf? (s : String) : Option Bool :=
  if ["1", "t", "T", "TRUE", "true", "True"].contains s then some true
  else if ["0", "f", "F", "FALSE", "false", "False"].contains s then some false
  else none

/-- The value of a digit in any base up to sixteen. -/
def digitOf? (base : Nat) (c : Char) : Option Nat :=
  let v := if c.isDigit then c.toNat - 48
    else if 'a' ≤ c ∧ c ≤ 'f' then c.toNat - 87
    else if 'A' ≤ c ∧ c ≤ 'F' then c.toNat - 55 else 16
  if v < base then some v else none

/-- Splits a number into its base and its digits; the base is named by what stands first. The mark
    of a base counts only before a digit. -/
def baseOf : List Char → Nat × Bool × List Char
  | '0' :: 'x' :: c :: cs | '0' :: 'X' :: c :: cs => (16, true, c :: cs)
  | '0' :: 'b' :: c :: cs | '0' :: 'B' :: c :: cs => (2, true, c :: cs)
  | '0' :: 'o' :: c :: cs | '0' :: 'O' :: c :: cs => (8, true, c :: cs)
  | '0' :: cs => (8, true, cs)
  | cs => (10, false, cs)

/-- Underscores stand alone, between digits or after the mark of a base. -/
def underscoresFit (named : Bool) : List Char → Bool
  | '_' :: c :: cs => named && c != '_' && underscoresFit false (c :: cs)
  | ['_'] => false
  | _ :: cs => underscoresFit true cs
  | [] => true

/-- Why a text is no number. -/
inductive NumberFault where
  | malformed
  | outOfRange
  deriving DecidableEq, Repr

/-- What is said about a text that is no number. -/
def NumberFault.message : NumberFault → String
  | malformed => "invalid syntax"
  | outOfRange => "value out of range"

/-- Reads digits onto a magnitude of at most sixty-four bits, passing over underscores. The first
    character that is wrong decides. -/
def readDigits (base : Nat) : Nat → List Char → Except NumberFault Nat
  | n, [] => .ok n
  | n, '_' :: cs => readDigits base n cs
  | n, c :: cs =>
    match digitOf? base c with
    | none => .error .malformed
    | some d =>
      if n * base + d > 0xFFFFFFFFFFFFFFFF then .error .outOfRange else readDigits base (n * base + d) cs

/-- The magnitude of a number without its sign. -/
def magnitude (cs : List Char) : Except NumberFault Nat :=
  if cs.isEmpty then .error .malformed
  else
    let (base, named, ds) := baseOf cs
    match readDigits base 0 ds with
    | .error fault => .error fault
    | .ok n => if underscoresFit named ds then .ok n else .error .malformed

/-- The number that a text stands for: an optional sign and a magnitude, sixty-four bits wide. -/
def numberOf (s : String) : Except NumberFault Int :=
  let (negative, cs) := match s.toList with
    | '-' :: cs => (true, cs)
    | '+' :: cs => (false, cs)
    | cs => (false, cs)
  match magnitude cs with
  | .error fault => .error fault
  | .ok n =>
    if n > (if negative then 0x8000000000000000 else 0x8000000000000000 - 1) then .error .outOfRange
    else .ok (if negative then -(n : Int) else n)

/-- Reads a value of a flag. -/
def Flag.read (f : Flag) (value : String) : Except FlagFault FlagValue :=
  match f.kind with
  | .text _ => .ok (.text value)
  | .switch =>
    match boolOf? value with
    | some b => .ok (.switch b)
    | none =>
      .error (.badValue value f ("strconv.ParseBool: parsing " ++ Text.quoted value ++ ": invalid syntax"))
  | .number _ =>
    match numberOf value with
    | .ok n => .ok (.number n)
    | .error fault =>
      .error (.badValue value f
        ("strconv.ParseInt: parsing " ++ Text.quoted value ++ ": " ++ fault.message))

/-! ## Arguments -/

/-- Arguments as they were read: the flags given, the other arguments, and how many of those stood
    before a double dash. -/
structure Arguments where
  given : List (String × FlagValue) := []
  rest : List String := []
  dash : Option Nat := none
  deriving DecidableEq, Repr

namespace Arguments

/-- A flag was given. -/
def has (a : Arguments) (name : String) : Bool := a.given.any (·.1 == name)

/-- The value given last. -/
def value? (a : Arguments) (name : String) : Option FlagValue := (a.given.reverse.lookup name)

/-- A switch is on. -/
def isOn (a : Arguments) (name : String) : Bool := a.value? name == some (.switch true)

/-- The text of a flag. -/
def text (a : Arguments) (name : String) (start : String := "") : String :=
  match a.value? name with
  | some (.text s) => s
  | _ => start

/-- The number of a flag. -/
def number (a : Arguments) (name : String) (start : Int) : Int :=
  match a.value? name with
  | some (.number n) => n
  | _ => start

/-- Notes the value of a flag. -/
def put (a : Arguments) (f : Flag) (value : String) : Except FlagFault Arguments :=
  (f.read value).map fun v => { a with given := a.given ++ [(f.name, v)] }

end Arguments

/-- Splits at the first equals sign. -/
def cutAtEquals (cs : List Char) : String × Option String :=
  let name := cs.takeWhile (· != '=')
  (String.ofList name, if name.length < cs.length then some (String.ofList (cs.drop (name.length + 1))) else none)

/-- Short flags that belong to a test harness, which the program passes over. -/
def isHarnessGroup (cs : List Char) : Bool := ['t', 'e', 's', 't', '.'].isPrefixOf cs

/-- Reads a group of short flags. The answer says whether the argument after it was used up. -/
def readShort (flags : List Flag) (next : Option String) (a : Arguments) :
    List Char → Except FlagFault (Arguments × Bool)
  | [] => .ok (a, false)
  | c :: cs =>
    let group := String.ofList (c :: cs)
    if isHarnessGroup (c :: cs) then .ok (a, false)
    else match flags.find? fun f => f.short == some c with
    | none => .error (.unknownShort c group)
    | some f =>
      match cs with
      | '=' :: d :: value => do return (← a.put f (String.ofList (d :: value)), false)
      | _ =>
        if f.kind == .switch then do readShort flags next (← a.put f "true") cs
        else if !cs.isEmpty then do return (← a.put f (String.ofList cs), false)
        else match next with
          | some value => do return (← a.put f value, true)
          | none => .error (.noShortValue c group)

/-- Reads arguments; flags may stand anywhere before a double dash. -/
def readArguments (flags : List Flag) (a : Arguments) : List String → Except FlagFault Arguments
  | [] => .ok a
  | arg :: more =>
    match arg.toList with
    | ['-', '-'] => .ok { a with dash := some a.rest.length, rest := a.rest ++ more }
    | '-' :: '-' :: cs =>
      if cs.head? == some '-' || cs.head? == some '=' then .error (.badForm arg)
      else
        let (name, value) := cutAtEquals cs
        match flags.find? fun f => f.name == name with
        | none => .error (.unknown name)
        | some f =>
          match value with
          | some v => do readArguments flags (← a.put f v) more
          | none =>
            if f.kind == .switch then do readArguments flags (← a.put f "true") more
            else match more with
              | v :: more => do readArguments flags (← a.put f v) more
              | [] => .error (.noValue name)
    | '-' :: c :: cs =>
      match readShort flags more.head? a (c :: cs) with
      | .error f => .error f
      | .ok (a, used) =>
        match used, more with
        | true, _ :: more => readArguments flags a more
        | _, more => readArguments flags a more
    | _ => readArguments flags { a with rest := a.rest ++ [arg] } more

end PineLang.Cli
