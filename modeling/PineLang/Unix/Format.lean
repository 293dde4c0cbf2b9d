import PineLang.Number.Double
import PineLang.Text.Utf8
import PineLang.Unix.Arithmetic

/-!
# Formatted output

The escapes of `echo`, and the formats of `printf` with their flags, widths and precisions.
-/
namespace PineLang.Shell

/-! ## Escapes -/

/-- The value of an octal number of up to `most` digits, and what follows. -/
def octal (most : Nat) (cs : List Char) : UInt8 × List Char :=
  let ds := (cs.take most).takeWhile fun c => '0' ≤ c && c ≤ '7'
  let n : Nat := ds.foldl (fun n c => n * 8 + (c.toNat - 48)) 0
  (n.toUInt8, cs.drop ds.length)

/-- The byte that a letter stands for after a backslash. -/
def escapeByte? : Char → Option UInt8
  | 'a' => some 7
  | 'b' => some 8
  | 't' => some 9
  | 'n' => some 10
  | 'v' => some 11
  | 'f' => some 12
  | 'r' => some 13
  | 'e' => some 27
  | '\\' => some 92
  | _ => none

/-- Replaces the escapes of a text. An escape that ends all output gives none for what follows. -/
def unescape : Nat → List Char → Bytes × Bool
  | 0, _ => ([], true)
  | fuel + 1, cs =>
    let next (bs : Bytes) (cs : List Char) : Bytes × Bool :=
      let (rest, goesOn) := unescape fuel cs
      (bs ++ rest, goesOn)
    match cs with
    | '\\' :: 'c' :: _ => ([], false)
    | '\\' :: '0' :: cs =>
      let (b, cs) := octal 3 cs
      next [b] cs
    | '\\' :: c :: cs =>
      if '1' ≤ c && c ≤ '7' then
        let (b, cs) := octal 3 (c :: cs)
        next [b] cs
      else match escapeByte? c with
        | some b => next [b] cs
        | none => next (utf8 (String.ofList ['\\', c])) cs
    | c :: cs => next (utf8 (String.singleton c)) cs
    | [] => ([], true)

/-- What `echo` writes. -/
def echoText (args : List String) : Bytes :=
  let silent := args.head? == some "-n"
  let text := " ".intercalate (if silent then args.drop 1 else args)
  let (bs, goesOn) := unescape (text.length + 1) text.toList
  if silent || !goesOn then bs else bs ++ [10]

/-! ## Formats -/

/-- A directive of a format. -/
structure Directive where
  flags : List Char := []
  width : Nat := 0
  precision : Option Nat := none
  letter : Char := 's'

/-- Output so far: what was written, what was complained of, the arguments that are left, and
    whether to go on. -/
structure Printed where
  out : Bytes := []
  complaints : List String := []
  args : List String := []
  goesOn : Bool := true
  fatal : Bool := false

/-- A number argument: its value, and what is wrong with it. Nothing is zero; after a quote it is
    the first byte of the text. -/
def numberArg (isSigned : Bool) (arg : String) : Int × Option String :=
  match arg.toList with
  | [] => (0, none)
  | q :: rest =>
    if q == '\'' || q == '"' then
      ((((utf8 (String.ofList rest)).head?.map UInt8.toNat).getD 0 : Nat), none)
    else
      let cs := arg.toList.dropWhile Char.isWhitespace
      let (negative, ds) := match cs with
        | '-' :: r => (true, r)
        | '+' :: r => (false, r)
        | r => (false, r)
      let (n, after) := leadingNumber ds
      if after.length == ds.length then (0, some (arg ++ ": expected numeric value"))
      else
        let v : Int := if negative then -(n : Int) else n
        let most : Int := if isSigned then greatestInt else 0xFFFFFFFFFFFFFFFF
        if v > most then (most, some (arg ++ ": Numerical result out of range"))
        else if v < leastInt then (leastInt, some (arg ++ ": Numerical result out of range"))
        else (v, if after.isEmpty then none else some (arg ++ ": not completely converted"))

/-- Digits of a number in a base. -/
def digitsIn (base : Nat) (n : Nat) : String := String.ofList (Nat.toDigits base n)

/-- Fills a text up to the width of a directive; zeros go between a sign and the digits. -/
def Directive.pad (d : Directive) (sign : String) (body : Bytes) (zeros : Bool) : Bytes :=
  let size := sign.utf8ByteSize + body.length
  let gap := d.width - size
  if d.flags.contains '-' then utf8 sign ++ body ++ List.replicate gap 32
  else if zeros && d.flags.contains '0' then utf8 sign ++ List.replicate gap 48 ++ body
  else List.replicate gap 32 ++ utf8 sign ++ body

/-- Digits with at least as many as the precision asks for. -/
def Directive.digits (d : Directive) (s : String) : String :=
  match d.precision with
  | some p => if p == 0 && s == "0" then "" else "".pushn '0' (p - s.length) ++ s
  | none => s

/-- A number as a directive asks for. -/
def Directive.number (d : Directive) (v : Int) : Bytes :=
  let unsigned := (v % 0x10000000000000000).toNat
  let plus := if d.flags.contains '+' then "+" else if d.flags.contains ' ' then " " else ""
  let zeros := d.precision.isNone
  match d.letter with
  | 'x' => d.pad (if d.flags.contains '#' && unsigned != 0 then "0x" else "")
      (utf8 (d.digits (digitsIn 16 unsigned))) zeros
  | 'X' => d.pad (if d.flags.contains '#' && unsigned != 0 then "0X" else "")
      (utf8 (d.digits (digitsIn 16 unsigned).toUpper)) zeros
  | 'o' =>
    let s := d.digits (digitsIn 8 unsigned)
    d.pad "" (utf8 (if d.flags.contains '#' && !(s.startsWith "0") then "0" ++ s else s)) zeros
  | 'u' => d.pad "" (utf8 (d.digits (toString unsigned))) zeros
  | _ => d.pad (if v < 0 then "-" else plus) (utf8 (d.digits (toString v.natAbs))) zeros

/-- A decimal fraction as a directive asks for. -/
def Directive.decimal (d : Directive) (arg : String) : Bytes × Option String :=
  let cs := arg.toList.dropWhile Char.isWhitespace
  let (negative, ds) := match cs with
    | '-' :: r => (true, r)
    | '+' :: r => (false, r)
    | r => (false, r)
  let whole := ds.takeWhile Char.isDigit
  let rest := ds.dropWhile Char.isDigit
  let (fraction, after) := match rest with
    | '.' :: r => (r.takeWhile Char.isDigit, r.dropWhile Char.isDigit)
    | r => ([], r)
  let shown := ((Double.ofDecimal? whole fraction).map (Double.fixed (d.precision.getD 6))).getD "inf"
  let fault := if arg.isEmpty then none
    else if whole.isEmpty && fraction.isEmpty then some (arg ++ ": expected numeric value")
    else if after.isEmpty then none else some (arg ++ ": not completely converted")
  (d.pad (if negative then "-" else if d.flags.contains '+' then "+" else "") (utf8 shown) true, fault)

/-- A number in a format: digits, or a star that takes an argument. -/
def formatCount (cs : List Char) (args : List String) : Option Int × List Char × List String :=
  match cs with
  | '*' :: rest => (some (numberArg true (args.headD "")).1, rest, args.drop 1)
  | _ =>
    let ds := cs.takeWhile Char.isDigit
    (if ds.isEmpty then none else some (Double.digitsValue ds : Int), cs.drop ds.length, args)

/-- Writes one directive. -/
def Printed.directive (p : Printed) (d : Directive) : Printed :=
  let arg := p.args.headD ""
  let more := p.args.drop 1
  let cut (bs : Bytes) : Bytes := match d.precision with
    | some n => bs.take n
    | none => bs
  match d.letter with
  | 's' => { p with out := p.out ++ d.pad "" (cut (utf8 arg)) false, args := more }
  | 'c' =>
    { p with out := p.out ++ d.pad "" [(utf8 arg).headD 0] false, args := more }
  | 'b' =>
    let (bs, goesOn) := unescape (arg.length + 1) arg.toList
    { p with out := p.out ++ d.pad "" (cut bs) false, args := more, goesOn }
  | 'f' =>
    let (bs, fault) := d.decimal arg
    { p with out := p.out ++ bs, complaints := p.complaints ++ fault.toList, args := more }
  | c =>
    let (v, fault) := numberArg (c == 'd' || c == 'i') arg
    { p with out := p.out ++ d.number v, complaints := p.complaints ++ fault.toList, args := more }

/-- Fills in a format once. -/
def Printed.fill : Nat → Printed → List Char → Printed
  | 0, p, _ => p
  | fuel + 1, p, cs =>
    if !p.goesOn then p
    else match cs with
      | [] => p
      | '%' :: '%' :: cs => fill fuel { p with out := p.out ++ [37] } cs
      | '%' :: cs =>
        let flags := cs.takeWhile fun c => "#-+ 0".contains c
        let rest := cs.drop flags.length
        let (width, rest, args) := formatCount rest p.args
        let (precision, rest, args) := match rest with
          | '.' :: r =>
            let (n, r, args) := formatCount r args
            (some (n.getD 0), r, args)
          | r => (none, r, args)
        let flags := if (width.getD 0) < 0 then '-' :: flags else flags
        match rest with
        | [] =>
          { p with complaints := p.complaints ++ ["missing format character"], goesOn := false, fatal := true }
        | letter :: after =>
          if "scbdiouxXf".contains letter then
            let d : Directive := {
              flags, letter
              width := (width.getD 0).natAbs
              precision := precision.bind fun n => if n < 0 then none else some n.toNat }
            fill fuel ({ p with args }.directive d) after
          else
            let shown := String.ofList ('%' :: cs.take (cs.length - after.length))
            { p with
              complaints := p.complaints ++ [shown ++ ": invalid directive"], goesOn := false, fatal := true }
      | '\\' :: c :: cs =>
        if '0' ≤ c && c ≤ '7' then
          let (b, cs) := octal 3 (c :: cs)
          fill fuel { p with out := p.out ++ [b] } cs
        else match escapeByte? c with
          | some b => fill fuel { p with out := p.out ++ [b] } cs
          | none => fill fuel { p with out := p.out ++ utf8 (String.ofList ['\\', c]) } cs
      | c :: cs => fill fuel { p with out := p.out ++ utf8 (String.singleton c) } cs

/-- Fills in a format as long as it takes up arguments. -/
def Printed.fillAll (format : List Char) : Nat → Printed → Printed
  | 0, p => p
  | fuel + 1, p =>
    let q := p.fill (format.length + 1) format
    if !q.goesOn || q.args.isEmpty || q.args.length == p.args.length then q else fillAll format fuel q

/-- What `printf` writes, what it complains of and its status. -/
def printfText : List String → Bytes × List String × Nat
  | [] => ([], ["usage: printf format [arg ...]"], 2)
  | "--" :: format :: args =>
    let p := Printed.fillAll format.toList (args.length + 1) { args }
    (p.out, p.complaints, if p.fatal then 2 else if p.complaints.isEmpty then 0 else 1)
  | format :: args =>
    match format.toList with
    | '-' :: c :: _ => ([], ["Illegal option -" ++ String.singleton c], 2)
    | cs =>
      let p := Printed.fillAll cs (args.length + 1) { args }
      (p.out, p.complaints, if p.fatal then 2 else if p.complaints.isEmpty then 0 else 1)

end PineLang.Shell
