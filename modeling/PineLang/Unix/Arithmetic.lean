/-!
# Sums

Integer expressions of the shell, sixty-four bits wide: the operators of C, and parameters that are
read and set by name.
-/
namespace PineLang.Shell

/-- An expression. -/
inductive SumExpr where
  | num (n : Int)
  | var (name : String)
  | unary (op : Char) (e : SumExpr)
  | binary (op : String) (a b : SumExpr)
  | all (a b : SumExpr)
  | any (a b : SumExpr)
  | cond (test yes no : SumExpr)
  | assign (name op : String) (e : SumExpr)

/-- A part of the text of an expression. -/
inductive SumToken where
  | num (n : Int)
  | var (name : String)
  | op (s : String)
  deriving DecidableEq, Repr

/-- Why an expression has no value. -/
inductive SumFault where
  | noPrimary
  | noEnd
  | zeroDivision
  | noColon
  | noParen
  | notNumber (text : String)
  deriving DecidableEq, Repr

/-- What is said about a fault in an expression. -/
def SumFault.message (text : String) : SumFault → String
  | noPrimary => "arithmetic expression: expecting primary: \"" ++ text ++ "\""
  | noEnd => "arithmetic expression: expecting EOF: \"" ++ text ++ "\""
  | zeroDivision => "arithmetic expression: division by zero: \"" ++ text ++ "\""
  | noColon => "arithmetic expression: expecting ':': \"" ++ text ++ "\""
  | noParen => "arithmetic expression: expecting ')': \"" ++ text ++ "\""
  | notNumber t => "Illegal number: " ++ t

/-- The least and the greatest number. -/
def leastInt : Int := -0x8000000000000000

/-- The greatest number. -/
def greatestInt : Int := 0x7FFFFFFFFFFFFFFF

/-- A number in sixty-four bits. -/
def wrapInt (n : Int) : Int := Int.bmod n 0x10000000000000000

/-- The value of a digit in any base up to sixteen. -/
def digitIn? (base : Nat) (c : Char) : Option Nat :=
  let v := if c.isDigit then c.toNat - 48
    else if 'a' ≤ c && c ≤ 'f' then c.toNat - 87
    else if 'A' ≤ c && c ≤ 'F' then c.toNat - 55
    else 99
  if v < base then some v else none

/-- The number at the start of a text, with what follows it. What starts with a zero is octal, or
    hexadecimal after an `x`; a number that is too great is the greatest. -/
def leadingNumber (cs : List Char) : Nat × List Char :=
  let read (base : Nat) (cs : List Char) : Nat × List Char :=
    let ds := cs.takeWhile fun c => (digitIn? base c).isSome
    (ds.foldl (fun n c => n * base + (digitIn? base c).getD 0) 0, cs.drop ds.length)
  match cs with
  | '0' :: x :: d :: rest =>
    if (x == 'x' || x == 'X') && (digitIn? 16 d).isSome then read 16 (d :: rest) else read 8 cs
  | '0' :: _ => read 8 cs
  | _ => read 10 cs

/-- The value of a parameter in a sum: nothing counts as zero. -/
def paramNumber (s : String) : Except SumFault Int :=
  let isBlank (c : Char) : Bool := c.isWhitespace
  let cs := s.toList.dropWhile isBlank
  if cs.isEmpty then .ok 0
  else
    let (negative, digits) := match cs with
      | '-' :: r => (true, r)
      | '+' :: r => (false, r)
      | r => (false, r)
    let (n, after) := leadingNumber digits
    if after.length == digits.length || !(after.all isBlank) then .error (.notNumber s)
    else
      let v : Int := if negative then -(n : Int) else n
      if v < leastInt || v > greatestInt then .error (.notNumber s) else .ok v

/-- The operators, longer ones first. -/
def sumOperators : List String :=
  ["<<=", ">>=", "<<", ">>", "<=", ">=", "==", "!=", "&&", "||", "+=", "-=", "*=", "/=", "%=",
   "&=", "^=", "|=", "+", "-", "*", "/", "%", "<", ">", "&", "^", "|", "!", "~", "?", ":", "(", ")",
   "="]

/-- Splits the text of an expression; what belongs to no expression ends it as an operator of its
    own. -/
def sumTokens : Nat → List Char → List SumToken
  | 0, _ => []
  | fuel + 1, cs =>
    match cs with
    | [] => []
    | c :: rest =>
      if c.isWhitespace then sumTokens fuel rest
      else if c.isDigit then
        let (n, after) := leadingNumber cs
        .num (min n greatestInt) :: sumTokens fuel after
      else if c.isAlpha || c == '_' then
        let name := cs.takeWhile fun c => c.isAlphanum || c == '_'
        .var (String.ofList name) :: sumTokens fuel (cs.drop name.length)
      else match sumOperators.find? fun o => o.toList.isPrefixOf cs with
        | some o => .op o :: sumTokens fuel (cs.drop o.length)
        | none => .op (String.singleton c) :: sumTokens fuel rest

/-- How closely a binary operator binds. -/
def sumPrecedence : String → Option Nat
  | "*" | "/" | "%" => some 10
  | "+" | "-" => some 9
  | "<<" | ">>" => some 8
  | "<" | "<=" | ">" | ">=" => some 7
  | "==" | "!=" => some 6
  | "&" => some 5
  | "^" => some 4
  | "|" => some 3
  | "&&" => some 2
  | "||" => some 1
  | _ => none

/-- The operators that set a parameter, each with what it does before. -/
def assignOperator? : String → Option String
  | "=" => some ""
  | "+=" => some "+"
  | "-=" => some "-"
  | "*=" => some "*"
  | "/=" => some "/"
  | "%=" => some "%"
  | "<<=" => some "<<"
  | ">>=" => some ">>"
  | "&=" => some "&"
  | "^=" => some "^"
  | "|=" => some "|"
  | _ => none

mutual

/-- Reads an assignment or a condition. -/
def readAssign : Nat → List SumToken → Except SumFault (SumExpr × List SumToken)
  | 0, _ => .error .noPrimary
  | fuel + 1, ts =>
    match ts with
    | .var name :: .op o :: rest =>
      match assignOperator? o with
      | some op => do
        let (e, rest) ← readAssign fuel rest
        return (.assign name op e, rest)
      | none => readCondSum fuel ts
    | _ => readCondSum fuel ts

/-- Reads a condition. -/
def readCondSum : Nat → List SumToken → Except SumFault (SumExpr × List SumToken)
  | 0, _ => .error .noPrimary
  | fuel + 1, ts => do
    let (test, rest) ← readBinary 1 fuel ts
    match rest with
    | .op "?" :: rest => do
      let (yes, rest) ← readAssign fuel rest
      match rest with
      | .op ":" :: rest => do
        let (no, rest) ← readCondSum fuel rest
        return (.cond test yes no, rest)
      | _ => .error .noColon
    | _ => return (test, rest)

/-- Reads operators that bind at least as closely as `least`. -/
def readBinary (least : Nat) : Nat → List SumToken → Except SumFault (SumExpr × List SumToken)
  | 0, _ => .error .noPrimary
  | fuel + 1, ts => do
    let (e, rest) ← readPrimary fuel ts
    binaryOn e least fuel rest

/-- Goes on with an operand that was read. -/
def binaryOn (e : SumExpr) (least : Nat) : Nat → List SumToken → Except SumFault (SumExpr × List SumToken)
  | 0, _ => .error .noPrimary
  | fuel + 1, ts =>
    match ts with
    | .op o :: rest =>
      match sumPrecedence o with
      | some p =>
        if p < least then .ok (e, ts)
        else do
          let (f, rest) ← readBinary (p + 1) fuel rest
          let joined := if o == "&&" then SumExpr.all e f else if o == "||" then SumExpr.any e f
            else .binary o e f
          binaryOn joined least fuel rest
      | none => .ok (e, ts)
    | _ => .ok (e, ts)

/-- Reads an operand. -/
def readPrimary : Nat → List SumToken → Except SumFault (SumExpr × List SumToken)
  | 0, _ => .error .noPrimary
  | fuel + 1, ts =>
    match ts with
    | .num n :: rest => .ok (.num n, rest)
    | .var v :: rest => .ok (.var v, rest)
    | .op "(" :: rest => do
      let (e, rest) ← readAssign fuel rest
      match rest with
      | .op ")" :: rest => return (e, rest)
      | _ => .error .noParen
    | .op o :: rest =>
      match o.toList with
      | [c] =>
        if c == '+' || c == '-' || c == '!' || c == '~' then do
          let (e, rest) ← readPrimary fuel rest
          return (.unary c e, rest)
        else .error .noPrimary
      | _ => .error .noPrimary
    | [] => .error .noPrimary

end

/-- A truth value as a number. -/
def truth (b : Bool) : Int := if b then 1 else 0

/-- The bits of a number. -/
def bitsOf (n : Int) : UInt64 := (n % 0x10000000000000000).toNat.toUInt64

/-- The number with these bits. -/
def ofBits (b : UInt64) : Int := wrapInt b.toNat

/-- The value of a binary operator. -/
def applyBinary (op : String) (a b : Int) : Except SumFault Int :=
  let shift := (b % 64).toNat
  match op with
  | "+" => .ok (wrapInt (a + b))
  | "-" => .ok (wrapInt (a - b))
  | "*" => .ok (wrapInt (a * b))
  | "/" => if b == 0 then .error .zeroDivision else .ok (min (Int.tdiv a b) greatestInt)
  | "%" => if b == 0 then .error .zeroDivision else .ok (Int.tmod a b)
  | "<<" => .ok (ofBits (bitsOf a <<< shift.toUInt64))
  | ">>" => .ok (Int.fdiv a (Nat.pow 2 shift : Nat))
  | "<" => .ok (truth (a < b))
  | "<=" => .ok (truth (a ≤ b))
  | ">" => .ok (truth (a > b))
  | ">=" => .ok (truth (a ≥ b))
  | "==" => .ok (truth (a == b))
  | "!=" => .ok (truth (a != b))
  | "&" => .ok (ofBits (bitsOf a &&& bitsOf b))
  | "^" => .ok (ofBits (bitsOf a ^^^ bitsOf b))
  | "|" => .ok (ofBits (bitsOf a ||| bitsOf b))
  | _ => .ok b

/-- Values of parameters, the one set last first. -/
abbrev Values := List (String × String)

/-- The value of an expression, with the parameters it sets. -/
def SumExpr.eval (vars : Values) : SumExpr → Except SumFault (Int × Values)
  | num n => .ok (n, vars)
  | var name => do return (← paramNumber ((vars.lookup name).getD ""), vars)
  | unary op e => do
    let (n, vars) ← e.eval vars
    let v := match op with
      | '-' => wrapInt (-n)
      | '!' => truth (n == 0)
      | '~' => -n - 1
      | _ => n
    return (v, vars)
  | binary op a b => do
    let (m, vars) ← a.eval vars
    let (n, vars) ← b.eval vars
    return (← applyBinary op m n, vars)
  | all a b => do
    let (m, vars) ← a.eval vars
    if m == 0 then return (0, vars)
    else
      let (n, vars) ← b.eval vars
      return (truth (n != 0), vars)
  | any a b => do
    let (m, vars) ← a.eval vars
    if m != 0 then return (1, vars)
    else
      let (n, vars) ← b.eval vars
      return (truth (n != 0), vars)
  | cond test yes no => do
    let (m, vars) ← test.eval vars
    if m != 0 then yes.eval vars else no.eval vars
  | assign name op e => do
    let old ← if op.isEmpty then pure 0 else paramNumber ((vars.lookup name).getD "")
    let (n, vars) ← e.eval vars
    let v ← if op.isEmpty then pure n else applyBinary op old n
    return (v, (name, toString v) :: vars)

/-- The value of the text of an expression, with the parameters it sets. -/
def evalSum (vars : Values) (text : String) : Except SumFault (Int × Values) := do
  let ts := sumTokens (text.length + 1) text.toList
  let (e, rest) ← readAssign (4 * ts.length + 4) ts
  if rest.isEmpty then e.eval vars else .error .noEnd

end PineLang.Shell
