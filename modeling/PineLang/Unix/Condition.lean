import PineLang.Disk.Tree
import PineLang.Unix.Arithmetic

/-!
# Tests

The conditions that a script can test: texts, numbers and files, with `!`, `-a`, `-o` and brackets.
-/
namespace PineLang.Shell

/-- Why a condition has no answer. -/
inductive TestFault where
  | unexpected (word : String)
  | noArgument (op : String)
  | noBracket
  | notNumber (word : String)
  deriving DecidableEq, Repr

/-- What is said about a condition that has no answer. -/
def TestFault.message : TestFault → String
  | unexpected w => (if w.isEmpty then "" else w ++ ": ") ++ "unexpected operator"
  | noArgument op => op ++ ": argument expected"
  | noBracket => "closing paren expected"
  | notNumber w => "Illegal number: " ++ w

/-- The operators with one operand. -/
def unaryTests : List String :=
  ["-r", "-w", "-x", "-e", "-f", "-d", "-c", "-b", "-p", "-u", "-g", "-k", "-s", "-t", "-z", "-n",
   "-h", "-O", "-G", "-L", "-S"]

/-- The operators with two operands. -/
def binaryTests : List String :=
  ["=", "!=", "<", ">", "-eq", "-ne", "-ge", "-gt", "-le", "-lt", "-nt", "-ot", "-ef"]

/-- What a word of a condition is. -/
inductive TestWord where
  | done
  | operand
  | unary
  | binary
  | negation
  | both
  | either
  | opening
  | closing
  deriving DecidableEq, Repr

/-- What the first word is. An operator without its operand, or before another operator, is an
    operand itself. -/
def testWord : List String → TestWord
  | [] => .done
  | w :: rest =>
    if unaryTests.contains w then
      match rest with
      | [] => .operand
      | [_] => .unary
      | next :: _ :: _ => if binaryTests.contains next then .operand else .unary
    else if binaryTests.contains w then .binary
    else match w with
      | "!" => .negation
      | "-a" => .both
      | "-o" => .either
      | "(" => if rest.isEmpty then .operand else .opening
      | ")" => .closing
      | _ => .operand

/-- The number that a word stands for. -/
def testNumber (w : String) : Except TestFault Int :=
  let isBlank (c : Char) : Bool := c.isWhitespace
  let cs := w.toList.dropWhile isBlank
  let (negative, cs) := match cs with
    | '-' :: r => (true, r)
    | '+' :: r => (false, r)
    | r => (false, r)
  let ds := cs.takeWhile Char.isDigit
  let n : Nat := ds.foldl (fun n c => n * 10 + (c.toNat - 48)) 0
  let v : Int := if negative then -(n : Int) else n
  if ds.isEmpty || !((cs.drop ds.length).all isBlank) || v < leastInt || v > greatestInt then
    .error (.notNumber w)
  else .ok v

/-- The answer of an operator with one operand. -/
def unaryTest (d : Disk) (op a : String) : Bool :=
  let entry := if a == "/dev/null" then none else (d.stat a).toOption
  match op with
  | "-n" => !a.isEmpty
  | "-z" => a.isEmpty
  | "-e" | "-r" | "-w" => a == "/dev/null" || entry.isSome
  | "-f" => entry.any fun e => !e.isDir
  | "-d" => entry.any Entry.isDir
  | "-c" => a == "/dev/null"
  | "-x" => entry.any fun e => match e with
      | .file _ runnable => runnable
      | .dir => true
  | "-s" => entry.any fun e => match e with
      | .file content _ => !content.isEmpty
      | .dir => true
  | "-O" | "-G" => entry.isSome
  | _ => false

/-- The answer of an operator with two operands. -/
def binaryTest (d : Disk) (op a b : String) : Except TestFault Bool :=
  let numbers (p : Int → Int → Bool) : Except TestFault Bool := do
    return p (← testNumber a) (← testNumber b)
  match op with
  | "=" => .ok (a == b)
  | "!=" => .ok (a != b)
  | "<" => .ok (a < b)
  | ">" => .ok (a > b)
  | "-eq" => numbers fun m n => m == n
  | "-ne" => numbers fun m n => m != n
  | "-ge" => numbers fun m n => m ≥ n
  | "-gt" => numbers fun m n => m > n
  | "-le" => numbers fun m n => m ≤ n
  | "-lt" => numbers fun m n => m < n
  | "-ef" => .ok (match d.find a, d.find b with
      | .ok (x, _), .ok (y, _) => x == y
      | _, _ => false)
  | _ => .ok false

mutual

/-- Alternatives. The answer comes with the words from the last one used on. -/
def testEither (d : Disk) : Nat → List String → Except TestFault (Bool × List String)
  | 0, ws => .ok (false, ws)
  | fuel + 1, ws => do
    let (a, ws) ← testBoth d fuel ws
    if testWord (ws.drop 1) == .either then do
      let (b, ws) ← testEither d fuel (ws.drop 2)
      return (a || b, ws)
    else return (a, ws)

/-- Conditions that must all hold. -/
def testBoth (d : Disk) : Nat → List String → Except TestFault (Bool × List String)
  | 0, ws => .ok (false, ws)
  | fuel + 1, ws => do
    let (a, ws) ← testNot d fuel ws
    if testWord (ws.drop 1) == .both then do
      let (b, ws) ← testBoth d fuel (ws.drop 2)
      return (a && b, ws)
    else return (a, ws)

/-- A condition that may be negated. -/
def testNot (d : Disk) : Nat → List String → Except TestFault (Bool × List String)
  | 0, ws => .ok (false, ws)
  | fuel + 1, ws =>
    if testWord ws == .negation then
      if ws.length == 1 then .ok (true, ws)
      else do
        let (a, ws) ← testNot d fuel (ws.drop 1)
        return (!a, ws)
    else testPrimary d fuel ws

/-- A single condition. -/
def testPrimary (d : Disk) : Nat → List String → Except TestFault (Bool × List String)
  | 0, ws => .ok (false, ws)
  | fuel + 1, ws =>
    match testWord ws with
    | .done => .ok (false, ws)
    | .opening =>
      if testWord (ws.drop 1) == .closing then .ok (false, ws.drop 1)
      else do
        let (a, ws) ← testEither d fuel (ws.drop 1)
        if testWord (ws.drop 1) == .closing then return (a, ws.drop 1) else .error .noBracket
    | .unary => .ok (unaryTest d (ws.headD "") ((ws.drop 1).headD ""), ws.drop 1)
    | _ =>
      match ws with
      | a :: op :: rest =>
        if testWord (op :: rest) == .binary then
          match rest with
          | b :: _ => do return (← binaryTest d op a b, rest)
          | [] => .error (.noArgument op)
        else .ok (!a.isEmpty, ws)
      | _ => .ok (!(ws.headD "").isEmpty, ws)

end

/-- Tests words that are read from left to right; none may be left over. -/
def testPlain (d : Disk) (ws : List String) : Except TestFault Bool := do
  let (a, left) ← testEither d (4 * ws.length + 4) ws
  if left.length ≥ 2 then .error (.unexpected (left.headD "")) else return a

/-- Tests words. Brackets around up to two of them, and a negation of up to three, are taken off
    before anything else is read; negations that are taken off count once. -/
def testAnswer (d : Disk) (negated : Bool) (ws : List String) : Except TestFault Bool :=
  let answer (r : Except TestFault Bool) : Except TestFault Bool := do return (← r) != negated
  match ws with
  | [] => .ok negated
  | [a, op, b] =>
    if binaryTests.contains op then answer (binaryTest d op a b)
    else if a == "(" && b == ")" then answer (testPlain d [op])
    else if a == "!" then testAnswer d true [op, b]
    else answer (testPlain d ws)
  | [a, b, c, e] =>
    if a == "(" && e == ")" then answer (testPlain d [b, c])
    else if a == "!" then testAnswer d true [b, c, e]
    else answer (testPlain d ws)
  | _ => answer (testPlain d ws)
termination_by ws.length

end PineLang.Shell
