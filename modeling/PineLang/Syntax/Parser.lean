import PineLang.Syntax.Precedence
import PineLang.Syntax.SyntaxError

/-!
# From lexemes to trees

A recursive descent over the lexemes that looks at most two ahead and stops at the first fault.
Every production takes a bound on its depth; each loop and each nested production takes one less.
Between two tokens fewer than sixteen productions nest, so the number of lexemes gives a bound that
is never reached.
-/
namespace PineLang

/-- A reader of lexemes: a value and the lexemes left, or the fault that stops the parse. -/
def Parser (α : Type) := List Lexeme → Except SyntaxError (α × List Lexeme)

namespace Parser

instance : Monad Parser where
  pure a := fun ls => .ok (a, ls)
  bind p f := fun ls =>
    match p ls with
    | .ok (a, rest) => f a rest
    | .error e => .error e

/-- Stops with a fault at the current lexeme. -/
def fail {α : Type} (f : SyntaxFault) : Parser α := fun ls => .error ⟨f, ls⟩

/-- The current token. The end of the list reads as the end of the file. -/
def current : Parser Token := fun ls =>
  .ok ((ls.head?.map Lexeme.toToken).getD ⟨.eof, {}, "", .none⟩, ls)

/-- The kind of the current token. -/
def kind : Parser Kind := do return (← current).kind

/-- Takes the current token. -/
def advance : Parser Token := do
  let t ← current
  fun ls => .ok (t, ls.drop 1)

/-- The current token has this kind. -/
def isAt (k : Kind) : Parser Bool := do return (← kind) == k

/-- Stops because the current token is none of what is expected. -/
def unexpected {α : Type} (expected : List String) : Parser α := fun ls =>
  match ls with
  | .error e _ :: _ => .error ⟨.lexical e, ls⟩
  | .token t :: _ =>
    if t.kind == .eof then .error ⟨.unexpectedEnd t.span expected, ls⟩
    else .error ⟨.unexpectedToken t expected, ls⟩
  | [] => .error ⟨.unexpectedEnd {} expected, ls⟩

/-- The word by which a message asks for a kind. -/
def expectedName : Kind → String
  | .newLine => "newline"
  | k => k.name

/-- Takes a token of this kind, or stops. -/
def expect (k : Kind) : Parser Token := do
  if ← isAt k then advance else unexpected [expectedName k]

/-- Takes a name. -/
def name : Parser (String × Span) := do
  if ← isAt .ident then
    let t ← advance
    return (t.text, t.span)
  else unexpected ["identifier"]

/-- A primitive type, the unit type, or the name of a struct. -/
def type : Parser TypeRef := do
  let t ← current
  match t.kind.primitive?, t.kind with
  | some ty, _ =>
    let _ ← advance
    return ⟨ty, t.span⟩
  | none, .underscore =>
    let _ ← advance
    return ⟨.unit, t.span⟩
  | none, .ident =>
    let _ ← advance
    return ⟨.struct t.text, t.span⟩
  | none, .eof => unexpected ["type"]
  | none, _ => fun ls =>
    match ls with
    | .error e _ :: _ => .error ⟨.lexical e, ls⟩
    | _ => .error ⟨.expectedType t, ls⟩

/-- `name: type`. -/
def field : Parser Param := do
  let (n, span) ← name
  let _ ← expect .colon
  let ty ← type
  return ⟨n, ty, span.cover ty.span⟩

/-! ## Expressions -/

/-- Only a variable or a field can be assigned to. -/
def isTarget : Expr → Bool
  | .ident _ _ | .member _ _ _ _ => true
  | _ => false

/-- Joins two operands. -/
def join (op : Joiner) (left right : Expr) : Parser Expr :=
  let span := left.span.cover right.span
  match op with
  | .op o => pure (.binary span o left right)
  | .assign => if isTarget left then pure (.assign span left right) else fail (.invalidTarget left.span)

mutual

/-- An expression whose operators have at least the given precedence. -/
def expr : Nat → Nat → Parser Expr
  | 0, _ => fail .exhausted
  | n + 1, least => do
    let left ← unary n
    exprTail n least left

/-- Goes on with the operators after a left operand. -/
@[grind =] def exprTail : Nat → Nat → Expr → Parser Expr
  | 0, _, _ => fail .exhausted
  | n + 1, least, left => do
    match (← kind).joiner? with
    | none => return left
    | some op =>
      if op.precedence < least then return left
      else
        let _ ← advance
        let right ← expr n op.rightPrecedence
        let joined ← join op left right
        exprTail n least joined

/-- Prefix operators and their operand. -/
def unary : Nat → Parser Expr
  | 0 => fail .exhausted
  | n + 1 => do
    match (← kind).unary? with
    | some op =>
      let t ← advance
      let operand ← unary n
      return .unary (t.span.cover operand.span) op operand
    | none =>
      let head ← primary n
      postfixes n head

/-- Calls and field accesses after an operand. -/
def postfixes : Nat → Expr → Parser Expr
  | 0, _ => fail .exhausted
  | n + 1, target => do
    match ← kind with
    | .lparen =>
      let _ ← advance
      let args ← arguments n
      let close ← expect .rparen
      postfixes n (.call (target.span.cover close.span) target args)
    | .dot =>
      let _ ← advance
      let (f, span) ← name
      postfixes n (.member (target.span.cover span) target f span)
    | _ => return target

/-- The arguments of a call, up to the closing parenthesis; one comma may trail. -/
def arguments : Nat → Parser (List Expr)
  | 0 => fail .exhausted
  | n + 1 => do
    if ← isAt .rparen then return []
    else
      let arg ← expr n 0
      if ← isAt .comma then
        let _ ← advance
        let rest ← arguments n
        return arg :: rest
      else return [arg]

/-- The fields of a struct literal, up to the closing brace; one comma may trail. -/
def fieldInits : Nat → Parser (List FieldInit)
  | 0 => fail .exhausted
  | n + 1 => do
    if ← isAt .rbrace then return []
    else
      let (f, span) ← name
      let _ ← expect .colon
      let value ← expr n 0
      let init := .mk f (span.cover value.span) value
      if ← isAt .comma then
        let _ ← advance
        let rest ← fieldInits n
        return init :: rest
      else return [init]

/-- A name, a literal, a group, or a struct literal. -/
def primary : Nat → Parser Expr
  | 0 => fail .exhausted
  | n + 1 => do
    let t ← current
    match t.kind with
    | .ident =>
      let _ ← advance
      if ← isAt .lbrace then
        let _ ← advance
        let fields ← fieldInits n
        let close ← expect .rbrace
        return .structLit (t.span.cover close.span) t.text t.span fields
      else return .ident t.span t.text
    | .kwSelf =>
      let _ ← advance
      return .ident t.span "self"
    | .intLit =>
      let _ ← advance
      return .lit t.span (.int t.payload.toInt t.text)
    | .floatLit =>
      let _ ← advance
      return .lit t.span (.float t.payload.toFloat t.text)
    | .stringLit =>
      let _ ← advance
      return .lit t.span (.string t.text)
    | .kwTrue =>
      let _ ← advance
      return .lit t.span (.bool true)
    | .kwFalse =>
      let _ ← advance
      return .lit t.span (.bool false)
    | .kwNil =>
      let _ ← advance
      return .lit t.span .nil
    | .lparen =>
      let _ ← advance
      let inner ← expr n 0
      let close ← expect .rparen
      return .group (t.span.cover close.span) inner
    | _ => unexpected ["expression"]

end

/-! ## Statements

A statement comes with a flag: it is set if the statement ended in an indented body, which has
taken the end of its last line. -/

/-- The end of a statement inside an indented body. -/
def endOfStmt (closed : Bool) : Parser Unit := do
  if closed then return ()
  else
    match ← kind with
    | .newLine =>
      let _ ← advance
      return ()
    | .dedent => return ()
    | _ => unexpected ["newline"]

/-- A `return` ends here without a value. -/
@[grind =] def endsReturn : Kind → Bool
  | .newLine | .dedent | .eof | .kwElse => true
  | _ => false

/-- The span from the first statement to the last. -/
def stmtsSpan : List Stmt → Span
  | [] => {}
  | s :: rest => s.span.cover ((s :: rest).getLastD s).span

mutual

/-- What follows a colon: one statement on the same line, or an indented body. -/
def body : Nat → Parser (Body × Bool)
  | 0 => fail .exhausted
  | n + 1 => do
    if ← isAt .newLine then
      let _ ← advance
      let _ ← expect .indent
      let stmts ← bodyStmts n
      return (.block (stmtsSpan stmts) stmts, true)
    else
      let (s, closed) ← stmt n
      return (.block s.span [s], closed)

/-- The statements of an indented body, and its end. -/
def bodyStmts : Nat → Parser (List Stmt)
  | 0 => fail .exhausted
  | n + 1 => do
    let (s, closed) ← stmt n
    endOfStmt closed
    if ← isAt .dedent then
      let _ ← advance
      return [s]
    else
      let rest ← bodyStmts n
      return s :: rest

/-- One statement, without the end of its line. -/
@[grind =] def stmt : Nat → Parser (Stmt × Bool)
  | 0 => fail .exhausted
  | n + 1 => do
    let t ← current
    match t.kind with
    | .kwIf => conditional n
    | .kwReturn =>
      let _ ← advance
      if endsReturn (← kind) then return (.ret t.span none, false)
      else
        let value ← expr n 0
        return (.ret (t.span.cover value.span) (some value), false)
    | .kwBreak =>
      let _ ← advance
      return (.brk t.span, false)
    | .kwLoop =>
      let _ ← advance
      let _ ← expect .colon
      let (b, closed) ← body n
      return (.loop (t.span.cover b.span) b, closed)
    | .kwLet =>
      let _ ← advance
      let (x, nameSpan) ← name
      let _ ← expect .colon
      let ty ← type
      let _ ← expect .assign
      let value ← expr n 0
      return (.bind (t.span.cover value.span) x nameSpan ty value, false)
    | .underscore =>
      let _ ← advance
      return (.empty t.span, false)
    | _ =>
      let x ← expr n 0
      return (.expr x.span x, false)

/-- An `if` with its branches. An `else` goes on with the statement even after an indented body,
    and belongs to the nearest `if`. -/
def conditional : Nat → Parser (Stmt × Bool)
  | 0 => fail .exhausted
  | n + 1 => do
    let t ← advance
    let test ← expr n 0
    let _ ← expect .colon
    let (yes, closed) ← body n
    if ← isAt .kwElse then
      let _ ← advance
      match ← kind with
      | .kwIf =>
        let (nested, closed) ← conditional n
        return (.cond (t.span.cover nested.span) test yes (some (.block nested.span [nested])), closed)
      | .colon =>
        let _ ← advance
        let (no, closed) ← body n
        return (.cond (t.span.cover no.span) test yes (some no), closed)
      | _ => unexpected [":", "if"]
    else return (.cond (t.span.cover yes.span) test yes none, closed)

end

/-! ## Items -/

/-- The parameters of a function, up to the closing parenthesis. -/
@[grind =] def params : Nat → Parser (List Param)
  | 0 => fail .exhausted
  | n + 1 => do
    let p ← field
    if ← isAt .comma then
      let _ ← advance
      let rest ← params n
      return p :: rest
    else return [p]

/-- `fun name(params) -> type: body`. -/
def fnItem (n : Nat) : Parser (Item × Bool) := do
  let t ← advance
  let (f, nameSpan) ← name
  let _ ← expect .lparen
  let ps ← if ← isAt .rparen then pure [] else params n
  let _ ← expect .rparen
  let _ ← expect .arrow
  let ret ← type
  let _ ← expect .colon
  let (b, closed) ← body n
  return (.fn ⟨f, nameSpan, ps, ret, b, t.span.cover b.span⟩, closed)

/-- The fields of an indented struct, one to a line, and its end. -/
@[grind =] def fieldLines : Nat → Parser (List Param)
  | 0 => fail .exhausted
  | n + 1 => do
    let f ← field
    endOfStmt false
    if ← isAt .dedent then
      let _ ← advance
      return [f]
    else
      let rest ← fieldLines n
      return f :: rest

/-- The fields of a struct in braces; one comma may trail. -/
@[grind =] def bracedFields : Nat → Parser (List Param)
  | 0 => fail .exhausted
  | n + 1 => do
    if ← isAt .rbrace then return []
    else
      let f ← field
      if ← isAt .comma then
        let _ ← advance
        let rest ← bracedFields n
        return f :: rest
      else return [f]

/-- A struct, with its fields indented or in braces. -/
def structItem (n : Nat) : Parser (Item × Bool) := do
  let t ← advance
  let (s, nameSpan) ← name
  match ← kind with
  | .colon =>
    let _ ← advance
    let _ ← expect .newLine
    let _ ← expect .indent
    let fields ← fieldLines n
    let last := (fields.getLast?.map (·.span)).getD {}
    return (.struct ⟨s, nameSpan, fields, t.span.cover last⟩, true)
  | .lbrace =>
    let _ ← advance
    let fields ← bracedFields n
    let close ← expect .rbrace
    return (.struct ⟨s, nameSpan, fields, t.span.cover close.span⟩, false)
  | _ => unexpected [":", "\x7b"]

/-- A declaration. -/
def item (n : Nat) : Parser (Item × Bool) := do
  match ← kind with
  | .kwFun => fnItem n
  | .kwType => structItem n
  | _ => unexpected ["fun", "type"]

/-- The end of an item: a line break unless the item has taken it, or the end of the block. -/
def endOfItem (closed : Bool) : Parser Unit := do
  if closed then return ()
  else
    match ← kind with
    | .newLine =>
      let _ ← advance
      return ()
    | .eof | .dedent => return ()
    | _ => unexpected ["newline"]

/-- The items up to the end of the file. -/
@[grind =] def items (cancelled : Bool) : Nat → Parser (List Item)
  | 0 => fail .exhausted
  | n + 1 => do
    match ← kind with
    | .newLine =>
      let _ ← advance
      items cancelled n
    | .eof => return []
    | _ =>
      if cancelled then fail .cancelled
      else
        let (i, closed) ← item n
        endOfItem closed
        let rest ← items cancelled n
        return i :: rest

/-- A depth that no source of this many lexemes needs. -/
def depthBound (lexemes : Nat) : Nat := 16 * (lexemes + 2)

end Parser

/-- Parses the lexemes of one file. A cancelled parse stops before the first item. -/
def parse (ls : List Lexeme) (cancelled : Bool := false) : Except SyntaxError File :=
  match Parser.items cancelled (Parser.depthBound ls.length) ls with
  | .error e => .error e
  | .ok (items, rest) =>
    let first := (ls.head?.map fun l => l.toToken.span).getD {}
    let last := (rest.head?.map fun l => l.toToken.span).getD {}
    .ok ⟨first.cover last, items⟩

/-- The diagnostics that reading the lexemes reports: those of the lexemes that were looked at,
    and last that of the fault. The parser looks at the current lexeme and the next. -/
def parseReports (ls : List Lexeme) : Except SyntaxError File → List Diagnostic
  | .ok _ => (ls.flatMap Lexeme.reports).map LexError.diagnostic
  | .error e =>
    let seen := ls.take (ls.length - e.rest.length + 2)
    let own := match e.fault with
      | .lexical _ | .cancelled => []
      | f => [f.diagnostic]
    (seen.flatMap Lexeme.reports).map LexError.diagnostic ++ own

/-- The lexemes of a list of tokens: nothing follows the first `eof`, and where there is none, the
    list ends behind the token before its last. -/
def lexemesOfTokens (ts : List Token) : List Lexeme :=
  let before := ts.takeWhile (·.kind != .eof)
  let stop := match ts.find? (·.kind == .eof) with
    | some t => t
    | none =>
      match ts.reverse with
      | _ :: t :: _ => ⟨.eof, .point t.span.file t.span.stop, "", .none⟩
      | _ => ⟨.eof, {}, "", .none⟩
  (before ++ [stop]).map .token

end PineLang
