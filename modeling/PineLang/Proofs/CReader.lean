import Mathlib.Algebra.Group.Nat.Defs
import PineLang.C.Split
import PineLang.Check.Reserved
import PineLang.Proofs.CTokens

/-!
Reading C text. A text is read as C's grammar says, as far as C trees go: binary operators by precedence
and to the left, assignments to the right and only to what no cast stands before, postfix operators before
prefix operators, an `else` with the nearest `if` that lacks one. Whether a name in parentheses is a type,
and whether a statement is a declaration, is decided by the names of types: those of the language, those
that the standard headers give to numbers, and the structs of the unit. Parentheses leave no trace. What
has no tree is not read.
-/
namespace PineLang.C

/-! ## Constants -/

/-- The value of digits in a base. -/
def digitsIn (base : Nat) (ds : Bytes) : Nat := ds.foldl (fun n d => n * base + (d.toNat - 0x30)) 0

/-- The value of the digits of an integer. A leading zero makes them octal. -/
def wholeValue? (ds : Bytes) : Option Nat :=
  match ds with
  | 0x30 :: more => if more.all (· < 0x38) then some (digitsIn 8 more) else none
  | _ => some (digitsIn 10 ds)

/-- What stands behind a sign, if there is one, and whether that is a minus. -/
def unsigned : Bytes → Bool × Bytes
  | 0x2D :: rest => (true, rest)
  | 0x2B :: rest => (false, rest)
  | bs => (false, bs)

/-- The exponent of a float, behind its digits. -/
def exponent? : Bytes → Option Int
  | [] => some 0
  | b :: rest =>
    let digits := (unsigned rest).2
    if (b == 0x65 || b == 0x45) && !digits.isEmpty && digits.all isDigit then
      some (if (unsigned rest).1 then -(digitsIn 10 digits : Int) else digitsIn 10 digits)
    else none

/-- The digits behind a point, and what stands behind them. -/
def fraction : Bytes → Bytes × Bytes
  | 0x2E :: rest => (rest.takeWhile isDigit, rest.dropWhile isDigit)
  | bs => ([], bs)

/-- The double nearest to `n * 10 ^ e`. -/
def scaled? (n : Nat) (e : Int) : Option Double :=
  if e ≥ 0 then Double.ofRatio? (n * 10 ^ e.toNat) 1 else Double.ofRatio? n (10 ^ (-e).toNat)

/-- The value of a float: digits, and a fraction, an exponent or both. -/
def floatValue? (text : Bytes) : Option Double :=
  let whole := text.takeWhile isDigit
  let rest := text.dropWhile isDigit
  if whole.isEmpty || rest.isEmpty then none
  else
    let (places, rest) := fraction rest
    (exponent? rest).bind fun e => scaled? (digitsIn 10 (whole ++ places)) (e - places.length)

/-- The value of a number: an integer, which is signed unless a suffix says otherwise, or a float. -/
def number? (text : Bytes) : Option Const :=
  let suffix := text.dropWhile isDigit
  if text.isEmpty then none
  else if suffix.isEmpty then
    (wholeValue? text).bind fun n => if n < 0x8000000000000000 then some (.int (Int64.ofNat n)) else none
  else if suffix == [0x55, 0x4C, 0x4C] then
    (wholeValue? (text.takeWhile isDigit)).bind fun n =>
      if n < 0x10000000000000000 then some (.uint (UInt64.ofNat n)) else none
  else (floatValue? text).map .float

/-- What a letter or sign behind a backslash stands for. -/
def escapes : List (UInt8 × UInt8) :=
  [(0x22, 0x22), (0x27, 0x27), (0x5C, 0x5C), (0x3F, 0x3F), (0x61, 0x07), (0x62, 0x08), (0x66, 0x0C), (0x6E, 0x0A),
   (0x72, 0x0D), (0x74, 0x09), (0x76, 0x0B)]

/-- An octal digit. -/
def isOctal (b : UInt8) : Bool := 0x30 ≤ b && b ≤ 0x37

/-- The byte that an escape stands for, behind its backslash, and how many bytes spell it there: a letter or
    sign, or up to three octal digits. -/
def escaped? (bs : Bytes) : Option (UInt8 × Nat) :=
  match bs.head?.bind (escapes.lookup ·) with
  | some value => some (value, 1)
  | none =>
    let digits := (bs.take 3).takeWhile isOctal
    let value := digitsIn 8 digits
    if !digits.isEmpty && value < 256 then some (UInt8.ofNat value, digits.length) else none

/-- The bytes that the spelling of a string stands for, where the first `skip` bytes belong to an escape
    already read. -/
def unescapeFrom : Nat → Bytes → Option Bytes
  | _, [] => some []
  | skip + 1, _ :: rest => unescapeFrom skip rest
  | 0, b :: rest =>
    if b = 0x5C then do
      let (value, width) ← escaped? rest
      let values ← unescapeFrom width rest
      some (value :: values)
    else (unescapeFrom 0 rest).map (b :: ·)

/-- The bytes that the spelling of a string stands for. -/
def unescape (inner : Bytes) : Option Bytes := unescapeFrom 0 inner

/-! ## Names and types -/

/-- Words that name a type whatever the structs are: those of the language, and those of the headers that
    give numbers their width. -/
def baseTypes : List (String × CType) :=
  [("void", .void), ("float", .f32), ("double", .f64), ("uint8_t", .u8), ("uint16_t", .u16), ("uint32_t", .u32),
   ("uint64_t", .u64), ("size_t", .usize), ("int8_t", .i8), ("int16_t", .i16), ("int32_t", .i32), ("int64_t", .i64)]

/-- The type that a word names, where the structs are known. -/
def namedType? (structs : List String) (w : String) : Option CType :=
  if structs.contains w then some (.struct w) else baseTypes.lookup w

/-- A word that is no keyword. -/
def isName (w : String) : Bool := !Check.cKeywords.contains w

/-- A word that can name an object or a function. -/
def isObjectName (structs : List String) (w : String) : Bool := isName w && (namedType? structs w).isNone

/-- The tokens behind a token. -/
@[grind =] def past (t : CToken) : List CToken → Option (List CToken)
  | [] => none
  | u :: rest => if u = t then some rest else none

/-- A name that is no keyword. -/
def readName : List CToken → Option (String × List CToken)
  | .word w :: rest => if isName w then some (w, rest) else none
  | _ => none

/-- The stars behind a type. -/
def readStars (t : CType) : List CToken → CType × List CToken
  | .punct .star :: rest => readStars (.ptr t) rest
  | ts => (t, ts)

section
variable (structs : List String)

/-- The name of an object or a function. -/
def readObject : List CToken → Option (String × List CToken)
  | .word w :: rest => if isObjectName structs w then some (w, rest) else none
  | _ => none

/-- A word starts a type. -/
def startsType (w : String) : Bool := w == "char" || w == "struct" || (namedType? structs w).isSome

/-- The tokens start with a type. -/
def atType : List CToken → Bool
  | .word w :: _ => startsType structs w
  | _ => false

/-- A type. Text is handled by pointer to its characters. -/
def readType : List CToken → Option (CType × List CToken)
  | .word w :: rest =>
    if w = "char" then (past (.punct .star) rest).map (readStars .str)
    else if w = "struct" then (readName rest).map fun (n, rest) => readStars (.struct n) rest
    else (namedType? structs w).map (readStars · rest)
  | _ => none

/-! ## Operators -/

/-- Prefix operators. -/
def prefixes : List (Punct × UnaryOp) :=
  [(.minus, .minus), (.plus, .plus), (.bang, .not), (.tilde, .complement), (.amp, .address), (.star, .deref),
   (.inc, .preInc), (.dec, .preDec)]

/-- Binary operators, with their precedence. -/
def binaries : List (Punct × BinaryOp × Nat) :=
  [(.orOr, .or, 0), (.andAnd, .and, 1), (.bar, .bitOr, 2), (.caret, .bitXor, 3), (.amp, .bitAnd, 4), (.eq, .eq, 5),
   (.ne, .ne, 5), (.lt, .lt, 6), (.gt, .gt, 6), (.le, .le, 6), (.ge, .ge, 6), (.shl, .shl, 7), (.shr, .shr, 7),
   (.plus, .add, 8), (.minus, .sub, 8), (.star, .mul, 9), (.slash, .div, 9), (.percent, .mod, 9)]

/-- Assignment operators. -/
def assigns : List (Punct × AssignOp) :=
  [(.set, .set), (.setMul, .mul), (.setDiv, .div), (.setMod, .mod), (.setAdd, .add), (.setSub, .sub), (.setShl, .shl),
   (.setShr, .shr), (.setAnd, .bitAnd), (.setXor, .bitXor), (.setOr, .bitOr)]

/-- What a table has for the punctuator that comes next, and the tokens behind it. -/
def pick {α : Type} (table : List (Punct × α)) : List CToken → Option (α × List CToken)
  | .punct p :: rest => (table.lookup p).map (·, rest)
  | _ => none

/-- The operator changes its operand, which has to be one that can be assigned to. -/
def UnaryOp.isStep : UnaryOp → Bool
  | preInc | preDec | postInc | postDec => true
  | _ => false

/-! ## Expressions -/

/-- What comes next behind an operand. -/
inductive Suffix where
  | index | call | direct | indirect | inc | dec

/-- The tokens that continue an operand. -/
def suffixes : List (Punct × Suffix) :=
  [(.lbracket, .index), (.lparen, .call), (.dot, .direct), (.arrow, .indirect), (.inc, .inc), (.dec, .dec)]

/-- Strings that follow one another are one. -/
def readStrings : List CToken → Option (Bytes × List CToken)
  | .str inner :: rest => do
    let value ← unescape inner
    let (more, rest) ← readStrings rest
    some (value ++ more, rest)
  | ts => some ([], ts)

/-- A name, a number or text. -/
def readAtom : List CToken → Option (CExpr × List CToken)
  | .word w :: rest => if isObjectName structs w then some (.ident w, rest) else none
  | .number digits :: rest => (number? digits).map fun c => (.const c, rest)
  | .str inner :: rest => (readStrings (.str inner :: rest)).map fun (value, rest) => (.const (.str value), rest)
  | _ => none

mutual

/-- An expression: an assignment, or operands with binary operators between them. What is assigned to has
    no cast before it. -/
def readExpr : Nat → List CToken → Option (CExpr × List CToken)
  | 0, _ => none
  | fuel + 1, ts => do
    let (assignable, left, rest) ← readCast fuel ts
    match pick assigns rest with
    | none => readBinary fuel 0 left rest
    | some (op, rest) => do
      if !assignable then none
      let (right, rest) ← readExpr fuel rest
      some (.assign op left right, rest)

/-- The binary operators of at least some precedence behind a left operand. -/
def readBinary : Nat → Nat → CExpr → List CToken → Option (CExpr × List CToken)
  | 0, _, _, _ => none
  | fuel + 1, least, left, ts =>
    match pick binaries ts with
    | none => some (left, ts)
    | some ((op, precedence), rest) =>
      if precedence < least then some (left, ts)
      else do
        let (_, right, rest) ← readCast fuel rest
        let (right, rest) ← readBinary fuel (precedence + 1) right rest
        readBinary fuel least (.binary op left right) rest

/-- An operand with its prefixes, and whether it can be assigned to as far as the grammar goes. -/
def readCast : Nat → List CToken → Option (Bool × CExpr × List CToken)
  | 0, _ => none
  | fuel + 1, ts =>
    match pick prefixes ts with
    | some (op, rest) => do
      let (assignable, x, rest) ← readCast fuel rest
      if op.isStep && !assignable then none
      some (true, .unary op x, rest)
    | none =>
      match past (.word "sizeof") ts with
      | some rest => do
        let (t, rest) ← (past (.punct .lparen) rest).bind (readType structs)
        let rest ← past (.punct .rparen) rest
        some (true, .sizeOf t, rest)
      | none =>
        match past (.punct .lparen) ts with
        | some inner =>
          if atType structs inner then do
            let (t, rest) ← readType structs inner
            let rest ← past (.punct .rparen) rest
            let (_, x, rest) ← readCast fuel rest
            some (false, .cast t x, rest)
          else do
            let (x, rest) ← readExpr fuel inner
            let rest ← past (.punct .rparen) rest
            (readSuffixes fuel x rest).map (true, ·)
        | none => do
          let (x, rest) ← readAtom structs ts
          (readSuffixes fuel x rest).map (true, ·)

/-- The postfix operators behind an operand. -/
def readSuffixes : Nat → CExpr → List CToken → Option (CExpr × List CToken)
  | 0, _, _ => none
  | fuel + 1, x, ts =>
    match pick suffixes ts with
    | none => some (x, ts)
    | some (.index, rest) => do
      let (i, rest) ← readExpr fuel rest
      let rest ← past (.punct .rbracket) rest
      readSuffixes fuel (.binary .index x i) rest
    | some (.call, rest) => do
      let (args, rest) ← readArgs fuel rest
      readSuffixes fuel (.call x args) rest
    | some (.direct, rest) => do
      let (f, rest) ← readName rest
      readSuffixes fuel (.member x .direct f) rest
    | some (.indirect, rest) => do
      let (f, rest) ← readName rest
      readSuffixes fuel (.member x .indirect f) rest
    | some (.inc, rest) => readSuffixes fuel (.unary .postInc x) rest
    | some (.dec, rest) => readSuffixes fuel (.unary .postDec x) rest

/-- Arguments, and the parenthesis that ends them. -/
def readArgs : Nat → List CToken → Option (List CExpr × List CToken)
  | 0, _ => none
  | fuel + 1, ts =>
    match past (.punct .rparen) ts with
    | some rest => some ([], rest)
    | none => do
      let (x, rest) ← readExpr fuel ts
      let (xs, rest) ← readMoreArgs fuel rest
      some (x :: xs, rest)

/-- Further arguments, each behind a comma. -/
def readMoreArgs : Nat → List CToken → Option (List CExpr × List CToken)
  | 0, _ => none
  | fuel + 1, ts =>
    match past (.punct .rparen) ts with
    | some rest => some ([], rest)
    | none => do
      let rest ← past (.punct .comma) ts
      let (x, rest) ← readExpr fuel rest
      let (xs, rest) ← readMoreArgs fuel rest
      some (x :: xs, rest)

end

/-! ## Statements -/

/-- What a statement is, by its first token. -/
inductive Lead where
  | empty | block | cond | loop | ret | leave | again | other
  deriving DecidableEq

/-- The tokens that tell statements other than expressions apart. -/
def leads : List (CToken × Lead) :=
  [(.punct .semicolon, .empty), (.punct .lbrace, .block), (.word "if", .cond), (.word "while", .loop),
   (.word "return", .ret), (.word "break", .leave), (.word "continue", .again)]

/-- What a statement with this first token is. -/
def leadOf (t : CToken) : Lead := (leads.lookup t).getD .other

/-- An expression between parentheses. -/
def readTest (fuel : Nat) (ts : List CToken) : Option (CExpr × List CToken) := do
  let rest ← past (.punct .lparen) ts
  let (x, rest) ← readExpr structs fuel rest
  let rest ← past (.punct .rparen) rest
  some (x, rest)

/-- An expression and the semicolon behind it. -/
def readFull (fuel : Nat) (ts : List CToken) : Option (CExpr × List CToken) := do
  let (x, rest) ← readExpr structs fuel ts
  let rest ← past (.punct .semicolon) rest
  some (x, rest)

/-- The declaration of an object, without the semicolon. -/
def readTyped (ts : List CToken) : Option (CParam × List CToken) := do
  let (t, rest) ← readType structs ts
  let (n, rest) ← readObject structs rest
  some (⟨n, t⟩, rest)

mutual

/-- A statement. An `else` belongs to the last `if` before it that has none. -/
@[grind =] def readStmt : Nat → List CToken → Option (CStmt × List CToken)
  | 0, _ => none
  | _ + 1, [] => none
  | fuel + 1, t :: rest =>
    match leadOf t with
    | .empty => some (.empty, rest)
    | .block => (readItems fuel rest).map fun (ss, rest) => (.block ss, rest)
    | .cond => do
      let (test, rest) ← readTest structs fuel rest
      let (yes, rest) ← readStmt fuel rest
      match past (.word "else") rest with
      | none => some (.cond test yes none, rest)
      | some rest => do
        let (no, rest) ← readStmt fuel rest
        some (.cond test yes (some no), rest)
    | .loop => do
      let (test, rest) ← readTest structs fuel rest
      let (body, rest) ← readStmt fuel rest
      some (.while test body, rest)
    | .ret =>
      match past (.punct .semicolon) rest with
      | some rest => some (.ret none, rest)
      | none => (readFull structs fuel rest).map fun (x, rest) => (.ret (some x), rest)
    | .leave => (past (.punct .semicolon) rest).map (.break, ·)
    | .again => (past (.punct .semicolon) rest).map (.continue, ·)
    | .other => (readFull structs fuel (t :: rest)).map fun (x, rest) => (.expr x, rest)

/-- A declaration or a statement. -/
def readItem : Nat → List CToken → Option (CStmt × List CToken)
  | 0, _ => none
  | fuel + 1, ts =>
    if atType structs ts then do
      let (d, rest) ← readTyped structs ts
      let rest ← past (.punct .semicolon) rest
      some (.var d.name d.type, rest)
    else readStmt fuel ts

/-- The declarations and statements of a block, and the brace that ends it. -/
def readItems : Nat → List CToken → Option (List CStmt × List CToken)
  | 0, _ => none
  | fuel + 1, ts =>
    match past (.punct .rbrace) ts with
    | some rest => some ([], rest)
    | none => do
      let (s, rest) ← readItem fuel ts
      let (ss, rest) ← readItems fuel rest
      some (s :: ss, rest)

end

/-! ## Declarations -/

/-- The members of a struct, and the brace that ends them. -/
def readMembers : Nat → List CToken → Option (List CParam × List CToken)
  | 0, _ => none
  | fuel + 1, ts =>
    match past (.punct .rbrace) ts with
    | some rest => some ([], rest)
    | none => do
      let (m, rest) ← readTyped structs ts
      let rest ← past (.punct .semicolon) rest
      let (ms, rest) ← readMembers fuel rest
      some (m :: ms, rest)

/-- Further parameters, each behind a comma, and the parenthesis that ends them. -/
def readMoreParams : Nat → List CToken → Option (List CParam × List CToken)
  | 0, _ => none
  | fuel + 1, ts =>
    match past (.punct .rparen) ts with
    | some rest => some ([], rest)
    | none => do
      let rest ← past (.punct .comma) ts
      let (p, rest) ← readTyped structs rest
      let (ps, rest) ← readMoreParams fuel rest
      some (p :: ps, rest)

/-- The parameters of a function, and the parenthesis that ends them. `void` alone stands for none. -/
def readParams (fuel : Nat) (ts : List CToken) : Option (List CParam × List CToken) :=
  match (past (.word "void") ts).bind (past (.punct .rparen)) with
  | some rest => some ([], rest)
  | none => do
    let (p, rest) ← readTyped structs ts
    let (ps, rest) ← readMoreParams structs fuel rest
    some (p :: ps, rest)

/-- What stands behind a function's parameters: its body, or a semicolon. -/
def readBody (fuel : Nat) (ts : List CToken) : Option (Option (List CStmt) × List CToken) :=
  match past (.punct .semicolon) ts with
  | some rest => some (none, rest)
  | none => do
    let rest ← past (.punct .lbrace) ts
    let (ss, rest) ← readItems structs fuel rest
    some (some ss, rest)

/-- The definition of a struct that names the type as it names the tag. -/
def readStruct (fuel : Nat) (ts : List CToken) : Option (Decl × List CToken) := do
  let (tag, rest) ← (past (.word "struct") ts).bind readName
  let rest ← past (.punct .lbrace) rest
  let (ms, rest) ← readMembers structs fuel rest
  let (name, rest) ← readName rest
  let rest ← past (.punct .semicolon) rest
  if name = tag then some (.struct name ms, rest) else none

/-- A declaration at file scope. -/
def readDecl (fuel : Nat) (ts : List CToken) : Option (Decl × List CToken) :=
  match past (.word "typedef") ts with
  | some rest => readStruct structs fuel rest
  | none => do
    let (d, rest) ← readTyped structs ts
    match past (.punct .lparen) rest, past (.punct .set) rest with
    | some rest, _ => do
      let (ps, rest) ← readParams structs fuel rest
      let (body, rest) ← readBody structs fuel rest
      some (.fn d.name ps d.type body, rest)
    | none, some rest => (readFull structs fuel rest).map fun (x, rest) => (.var d.name d.type (some x), rest)
    | none, none => (past (.punct .semicolon) rest).map (.var d.name d.type none, ·)

/-- Declarations to the end. -/
def readDecls : Nat → List CToken → Option (List Decl)
  | _, [] => some []
  | 0, _ :: _ => none
  | fuel + 1, t :: ts => do
    let (d, rest) ← readDecl structs fuel (t :: ts)
    let ds ← readDecls fuel rest
    some (d :: ds)

/-! ## Units -/

/-- Lines that are directives. -/
inductive Directive where
  | once
  | includes (i : Include)

/-- What a line has behind some text at its head. -/
def behind (head : String) (line : Bytes) : Option Bytes :=
  if (asciiBytes head.toList).isPrefixOf line then some (line.drop head.length) else none

/-- The name of a header, before the sign that ends the line. -/
def headerName (closing : UInt8) (line : Bytes) : Option String :=
  if line.dropWhile (· != closing) = [closing] then Text.string? (line.takeWhile (· != closing)) else none

/-- The directive that a line is. -/
def directive? (line : Bytes) : Option Directive :=
  if line = asciiBytes "#pragma once".toList then some .once
  else match behind "#include <" line, behind "#include \"" line with
    | some name, _ => (headerName 0x3E name).map fun n => .includes ⟨n, true⟩
    | none, some name => (headerName 0x22 name).map fun n => .includes ⟨n, false⟩
    | none, none => none

/-- The directives before all else, and the lines behind them. -/
def directives : List Bytes → Option (List Directive × List Bytes)
  | [] => some ([], [])
  | line :: lines =>
    if line.all isSpace then directives lines
    else if line.head? = some 0x23 then do
      let d ← directive? line
      let (ds, rest) ← directives lines
      some (d :: ds, rest)
    else some ([], line :: lines)

/-- The header that a directive includes. -/
def Directive.include? : Directive → Option Include
  | once => none
  | includes i => some i

/-- The directive says that a header is to be read once. -/
def Directive.isOnce : Directive → Bool
  | once => true
  | includes _ => false

/-- The unit of some name that a text is, where the structs are known. -/
def readUnit (name : String) (text : Bytes) : Option CUnit := do
  let (ds, rest) ← directives (text.splitOn 0x0A)
  let ts ← tokens ([0x0A].intercalate rest)
  let decls ← readDecls structs (16 * ts.length) ts
  some ⟨name, ds.any Directive.isOnce, ds.filterMap Directive.include?, decls⟩

end

end PineLang.C
