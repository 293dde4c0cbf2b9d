import PineLang.Syntax.Parser

/-!
# Parsing a source as it comes

What each production of the parser does, as a plan: it looks at the current lexeme, takes it, enters other
productions, and ends with what was read or with a fault. A plan says neither where lexemes come from nor how the
productions it enters are run. A loop is a production that enters itself for its next turn.

A parser calls its source for one lexeme at a time and sees two of them: the current one and the next. Behind the end of
file it does not call again. The parse goes on in steps: each follows the plan of the production entered last, and the
productions that are entered and not yet left wait on a stack.
-/
namespace PineLang

/-! ## Productions and plans -/

/-- The productions that enter others, or themselves. -/
inductive Production where
  | items | params | fieldLines | bracedFields
  | body | bodyStmts | stmt | conditional
  | expr | exprTail | unary | postfixes | arguments | fieldInits | primary
  deriving DecidableEq, Repr

namespace Production

/-- What a production is told when it is entered: whether the parse is cancelled, the least precedence, and the
    operand before it. -/
@[reducible]
def Input : Production → Type
  | items => Bool
  | expr => Nat
  | exprTail => Nat × Expr
  | postfixes => Expr
  | _ => Unit

/-- What a production reads. -/
@[reducible]
def Output : Production → Type
  | items => List Item
  | params | fieldLines | bracedFields => List Param
  | body => Body × Bool
  | bodyStmts => List Stmt
  | stmt | conditional => Stmt × Bool
  | expr | exprTail | unary | postfixes | primary => Expr
  | arguments => List Expr
  | fieldInits => List FieldInit

end Production

/-- What is done to read a value. -/
inductive Plan (α : Type) where
  | done (a : α)
  /-- Looks at the current lexeme. -/
  | look (next : Lexeme → Plan α)
  /-- Takes the current lexeme. -/
  | take (next : Token → Plan α)
  | enter (p : Production) (x : p.Input) (next : p.Output → Plan α)
  | stop (fault : SyntaxFault)

namespace Plan

/-- Goes on with another plan. -/
def bind {α β : Type} : Plan α → (α → Plan β) → Plan β
  | done a, f => f a
  | look next, f => look fun l => (next l).bind f
  | take next, f => take fun t => (next t).bind f
  | enter p x next, f => enter p x fun a => (next a).bind f
  | stop fault, _ => stop fault

instance : Monad Plan where
  pure := done
  bind := bind

/-- Enters a production. -/
@[simp]
def call (p : Production) (x : p.Input) : Plan p.Output := enter p x done

/-- The current lexeme. -/
def lexeme : Plan Lexeme := look done

/-- The current token. -/
def current : Plan Token := do return (← lexeme).toToken

/-- The kind of the current token. -/
def kind : Plan Kind := do return (← current).kind

/-- Takes the current token. -/
def advance : Plan Token := take done

/-- The current token has this kind. -/
def isAt (k : Kind) : Plan Bool := do return (← kind) == k

/-- Stops because the current token is none of what is expected. -/
def unexpected {α : Type} (expected : List String) : Plan α := do
  match ← lexeme with
  | .error e _ => stop (.lexical e)
  | .token t => if t.kind == .eof then stop (.unexpectedEnd t.span expected) else stop (.unexpectedToken t expected)

/-- Takes a token of this kind, or stops. -/
def expect (k : Kind) : Plan Token := do
  if ← isAt k then advance else unexpected [Parser.expectedName k]

/-- Takes a name. -/
def name : Plan (String × Span) := do
  if ← isAt .ident then
    let t ← advance
    return (t.text, t.span)
  else unexpected ["identifier"]

/-- Stops because the current token names no type. -/
def noType {α : Type} (t : Token) : Plan α := do
  match ← lexeme with
  | .error e _ => stop (.lexical e)
  | .token _ => stop (.expectedType t)

/-- A primitive type, the unit type, or the name of a struct. -/
def type : Plan TypeRef := do
  let t ← current
  match t.kind.primitive?, t.kind with
  | some ty, _ =>
    let _ ← advance
    return ⟨ty, t.span⟩
  | none, .underscore =>
    let _ ← advance
    return ⟨.unit, t.span⟩
  | none, .ident =>
    let _ ← advance
    return ⟨.struct t.text, t.span⟩
  | none, .eof => unexpected ["type"]
  | none, _ => noType t

/-- `name: type`. -/
def field : Plan Param := do
  let (n, span) ← name
  let _ ← expect .colon
  let ty ← type
  return ⟨n, ty, span.cover ty.span⟩

/-! ## Expressions -/

/-- Joins two operands. -/
def join (op : Joiner) (left right : Expr) : Plan Expr :=
  let span := left.span.cover right.span
  match op with
  | .op o => pure (.binary span o left right)
  | .assign => if Parser.isTarget left then pure (.assign span left right) else stop (.invalidTarget left.span)

/-- An expression whose operators have at least the given precedence. -/
def expr (least : Nat) : Plan Expr := do
  let left ← call .unary ()
  call .exprTail (least, left)

/-- A turn of the loop over the operators after a left operand. -/
def exprTail (least : Nat) (left : Expr) : Plan Expr := do
  match (← kind).joiner? with
  | none => return left
  | some op =>
    if op.precedence < least then return left
    else
      let _ ← advance
      let right ← call .expr op.rightPrecedence
      let joined ← join op left right
      call .exprTail (least, joined)

/-- A turn of the loop over prefix operators, or the operand behind them. -/
def unary : Plan Expr := do
  match (← kind).unary? with
  | some op =>
    let t ← advance
    let operand ← call .unary ()
    return .unary (t.span.cover operand.span) op operand
  | none =>
    let head ← call .primary ()
    call .postfixes head

/-- A turn of the loop over calls and field accesses after an operand. -/
def postfixes (target : Expr) : Plan Expr := do
  match ← kind with
  | .lparen =>
    let _ ← advance
    let args ← call .arguments ()
    let close ← expect .rparen
    call .postfixes (.call (target.span.cover close.span) target args)
  | .dot =>
    let _ ← advance
    let (f, span) ← name
    call .postfixes (.member (target.span.cover span) target f span)
  | _ => return target

/-- A turn of the loop over the arguments of a call. -/
def arguments : Plan (List Expr) := do
  if ← isAt .rparen then return []
  else
    let arg ← call .expr 0
    if ← isAt .comma then
      let _ ← advance
      let rest ← call .arguments ()
      return arg :: rest
    else return [arg]

/-- A turn of the loop over the fields of a struct literal. -/
def fieldInits : Plan (List FieldInit) := do
  if ← isAt .rbrace then return []
  else
    let (f, span) ← name
    let _ ← expect .colon
    let value ← call .expr 0
    let init := .mk f (span.cover value.span) value
    if ← isAt .comma then
      let _ ← advance
      let rest ← call .fieldInits ()
      return init :: rest
    else return [init]

/-- A name, a literal, a group, or a struct literal. -/
def primary : Plan Expr := do
  let t ← current
  match t.kind with
  | .ident =>
    let _ ← advance
    if ← isAt .lbrace then
      let _ ← advance
      let fields ← call .fieldInits ()
      let close ← expect .rbrace
      return .structLit (t.span.cover close.span) t.text t.span fields
    else return .ident t.span t.text
  | .kwSelf =>
    let _ ← advance
    return .ident t.span "self"
  | .intLit =>
    let _ ← advance
    return .lit t.span (.int t.payload.toInt t.text)
  | .floatLit =>
    let _ ← advance
    return .lit t.span (.float t.payload.toFloat t.text)
  | .stringLit =>
    let _ ← advance
    return .lit t.span (.string t.text)
  | .kwTrue =>
    let _ ← advance
    return .lit t.span (.bool true)
  | .kwFalse =>
    let _ ← advance
    return .lit t.span (.bool false)
  | .kwNil =>
    let _ ← advance
    return .lit t.span .nil
  | .lparen =>
    let _ ← advance
    let inner ← call .expr 0
    let close ← expect .rparen
    return .group (t.span.cover close.span) inner
  | _ => unexpected ["expression"]

/-! ## Statements -/

/-- The end of a statement inside an indented body. -/
def endOfStmt (closed : Bool) : Plan Unit := do
  if closed then return ()
  else
    match ← kind with
    | .newLine =>
      let _ ← advance
      return ()
    | .dedent => return ()
    | _ => unexpected ["newline"]

/-- What follows a colon: one statement on the same line, or an indented body. -/
def body : Plan (Body × Bool) := do
  if ← isAt .newLine then
    let _ ← advance
    let _ ← expect .indent
    let stmts ← call .bodyStmts ()
    return (.block (Parser.stmtsSpan stmts) stmts, true)
  else
    let (s, closed) ← call .stmt ()
    return (.block s.span [s], closed)

/-- A turn of the loop over the statements of an indented body. -/
def bodyStmts : Plan (List Stmt) := do
  let (s, closed) ← call .stmt ()
  endOfStmt closed
  if ← isAt .dedent then
    let _ ← advance
    return [s]
  else
    let rest ← call .bodyStmts ()
    return s :: rest

/-- One statement, without the end of its line. -/
def stmt : Plan (Stmt × Bool) := do
  let t ← current
  match t.kind with
  | .kwIf => call .conditional ()
  | .kwReturn =>
    let _ ← advance
    if Parser.endsReturn (← kind) then return (.ret t.span none, false)
    else
      let value ← call .expr 0
      return (.ret (t.span.cover value.span) (some value), false)
  | .kwBreak =>
    let _ ← advance
    return (.brk t.span, false)
  | .kwLoop =>
    let _ ← advance
    let _ ← expect .colon
    let (b, closed) ← call .body ()
    return (.loop (t.span.cover b.span) b, closed)
  | .kwLet =>
    let _ ← advance
    let (x, nameSpan) ← name
    let _ ← expect .colon
    let ty ← type
    let _ ← expect .assign
    let value ← call .expr 0
    return (.bind (t.span.cover value.span) x nameSpan ty value, false)
  | .underscore =>
    let _ ← advance
    return (.empty t.span, false)
  | _ =>
    let x ← call .expr 0
    return (.expr x.span x, false)

/-- An `if` with its branches. -/
def conditional : Plan (Stmt × Bool) := do
  let t ← advance
  let test ← call .expr 0
  let _ ← expect .colon
  let (yes, closed) ← call .body ()
  if ← isAt .kwElse then
    let _ ← advance
    match ← kind with
    | .kwIf =>
      let (nested, closed) ← call .conditional ()
      return (.cond (t.span.cover nested.span) test yes (some (.block nested.span [nested])), closed)
    | .colon =>
      let _ ← advance
      let (no, closed) ← call .body ()
      return (.cond (t.span.cover no.span) test yes (some no), closed)
    | _ => unexpected [":", "if"]
  else return (.cond (t.span.cover yes.span) test yes none, closed)

/-! ## Items -/

/-- A turn of the loop over the parameters of a function. -/
def params : Plan (List Param) := do
  let p ← field
  if ← isAt .comma then
    let _ ← advance
    let rest ← call .params ()
    return p :: rest
  else return [p]

/-- What follows the parameters of a function. -/
def signature (start : Span) (f : String × Span) (ps : List Param) : Plan (Item × Bool) := do
  let _ ← expect .rparen
  let _ ← expect .arrow
  let ret ← type
  let _ ← expect .colon
  let (b, closed) ← call .body ()
  return (.fn ⟨f.1, f.2, ps, ret, b, start.cover b.span⟩, closed)

/-- `fun name(params) -> type: body`. -/
def fnItem : Plan (Item × Bool) := do
  let t ← advance
  let f ← name
  let _ ← expect .lparen
  if ← isAt .rparen then signature t.span f []
  else
    let ps ← call .params ()
    signature t.span f ps

/-- A turn of the loop over the fields of an indented struct. -/
def fieldLines : Plan (List Param) := do
  let f ← field
  endOfStmt false
  if ← isAt .dedent then
    let _ ← advance
    return [f]
  else
    let rest ← call .fieldLines ()
    return f :: rest

/-- A turn of the loop over the fields of a struct in braces. -/
def bracedFields : Plan (List Param) := do
  if ← isAt .rbrace then return []
  else
    let f ← field
    if ← isAt .comma then
      let _ ← advance
      let rest ← call .bracedFields ()
      return f :: rest
    else return [f]

/-- A struct, with its fields indented or in braces. -/
def structItem : Plan (Item × Bool) := do
  let t ← advance
  let (s, nameSpan) ← name
  match ← kind with
  | .colon =>
    let _ ← advance
    let _ ← expect .newLine
    let _ ← expect .indent
    let fields ← call .fieldLines ()
    let last := (fields.getLast?.map (·.span)).getD {}
    return (.struct ⟨s, nameSpan, fields, t.span.cover last⟩, true)
  | .lbrace =>
    let _ ← advance
    let fields ← call .bracedFields ()
    let close ← expect .rbrace
    return (.struct ⟨s, nameSpan, fields, t.span.cover close.span⟩, false)
  | _ => unexpected [":", "\x7b"]

/-- A declaration. -/
def item : Plan (Item × Bool) := do
  match ← kind with
  | .kwFun => fnItem
  | .kwType => structItem
  | _ => unexpected ["fun", "type"]

/-- The end of an item: a line break unless the item has taken it, or the end of the block. -/
def endOfItem (closed : Bool) : Plan Unit := do
  if closed then return ()
  else
    match ← kind with
    | .newLine =>
      let _ ← advance
      return ()
    | .eof | .dedent => return ()
    | _ => unexpected ["newline"]

/-- A turn of the loop over the items up to the end of the file. -/
def items (cancelled : Bool) : Plan (List Item) := do
  match ← kind with
  | .newLine =>
    let _ ← advance
    call .items cancelled
  | .eof => return []
  | _ =>
    if cancelled then stop .cancelled
    else
      let (i, closed) ← item
      endOfItem closed
      let rest ← call .items cancelled
      return i :: rest

end Plan

/-- The plan of a production. -/
def Production.plan : (p : Production) → p.Input → Plan p.Output
  | items, cancelled => Plan.items cancelled
  | params, _ => Plan.params
  | fieldLines, _ => Plan.fieldLines
  | bracedFields, _ => Plan.bracedFields
  | body, _ => Plan.body
  | bodyStmts, _ => Plan.bodyStmts
  | stmt, _ => Plan.stmt
  | conditional, _ => Plan.conditional
  | expr, least => Plan.expr least
  | exprTail, (least, left) => Plan.exprTail least left
  | unary, _ => Plan.unary
  | postfixes, target => Plan.postfixes target
  | arguments, _ => Plan.arguments
  | fieldInits, _ => Plan.fieldInits
  | primary, _ => Plan.primary

/-! ## Sources and windows -/

/-- What gives out lexemes: the answer to each call, counted from zero. No answer says that nothing more comes. -/
abbrev LexemeSource := Nat → Option Lexeme

/-- The source ends at a call: it gives the end of file, or nothing. -/
def LexemeSource.EndsAt (s : LexemeSource) (call : Nat) : Prop := ∀ l, s call = some l → Lexer.isEnd l = true

/-- What a parser sees of its source. -/
structure Window where
  current : Lexeme
  next : Lexeme
  /-- How often the source was called. -/
  calls : Nat
  /-- How many tokens were taken. -/
  taken : Nat := 0
  /-- The place of the token taken last. -/
  last : Span := {}
  deriving DecidableEq, Repr

namespace Window

/-- The lexeme behind another, and how often the source was called by then. Behind the end of file stands the same end;
    where nothing more comes, the file ends behind the token taken last. -/
def pull (s : LexemeSource) (before : Lexeme) (calls : Nat) (last : Span) : Lexeme × Nat :=
  if Lexer.isEnd before then (before, calls)
  else ((s calls).getD (.token ⟨.eof, .point last.file last.stop, "", .none⟩), calls + 1)

/-- The window on the first two lexemes. -/
def ofSource (s : LexemeSource) : Window :=
  let (current, calls) := pull s (.token ⟨.invalid, {}, "", .none⟩) 0 {}
  let (next, calls) := pull s current calls {}
  { current, next, calls }

/-- Takes the current lexeme, unless it is the end of file. -/
def advance (s : LexemeSource) (w : Window) : Window :=
  if Lexer.isEnd w.current then w
  else
    let last := if w.current.toToken.kind == .invalid then w.last else w.current.toToken.span
    let (next, calls) := pull s w.next w.calls last
    { current := w.next, next, calls, taken := w.taken + 1, last }

/-- The lexemes that are seen when all are taken; at most `count` of them. -/
def ahead (s : LexemeSource) : Nat → Window → List Lexeme
  | 0, _ => []
  | count + 1, w => w.current :: if Lexer.isEnd w.current then [] else (w.advance s).ahead s count

end Window

/-- The lexemes of a source that ends at a call. -/
def LexemeSource.lexemes (s : LexemeSource) (stop : Nat) : List Lexeme := (Window.ofSource s).ahead s (stop + 1)

/-! ## Descents -/

/-- The productions that are entered and not yet left: with how many tokens taken each was entered, and how the
    production below goes on with what it reads. -/
inductive Stack : Production → Type where
  | root (entered : Nat) : Stack .items
  | push {p q : Production} (entered : Nat) (next : q.Output → Plan p.Output) (below : Stack p) : Stack q

namespace Stack

/-- How many tokens were taken when the production on top was entered. -/
def entered : {q : Production} → Stack q → Nat
  | _, root n => n
  | _, push n _ _ => n

/-- The productions, and with how many tokens taken each was entered; the one entered last comes first. -/
def entries : {q : Production} → Stack q → List (Production × Nat)
  | _, root n => [(.items, n)]
  | q, push n _ below => (q, n) :: below.entries

end Stack

/-- A parse under way, or its end. -/
inductive Descent where
  | running {p : Production} (stack : Stack p) (plan : Plan p.Output) (window : Window)
  | finished (items : List Item) (window : Window)
  | failed (fault : SyntaxFault) (window : Window)

namespace Descent

/-- The parse of a file, before its first step. -/
def start (s : LexemeSource) (cancelled : Bool) : Descent := running (.root 0) (Plan.items cancelled) (.ofSource s)

/-- One step. -/
def step (s : LexemeSource) : Descent → Descent
  | running stack (.look next) w => running stack (next w.current) w
  | running stack (.take next) w => running stack (next w.current.toToken) (w.advance s)
  | running stack (.enter q x next) w => running (.push w.taken next stack) (q.plan x) w
  | running (.push _ next below) (.done a) w => running below (next a) w
  | running (.root _) (.done items) w => finished items w
  | running _ (.stop fault) w => failed fault w
  | finished items w => finished items w
  | failed fault w => failed fault w

/-- The parse after some steps. -/
def after (s : LexemeSource) (d : Descent) : Nat → Descent
  | 0 => d
  | steps + 1 => (d.step s).after s steps

/-- What is seen of the source. -/
def window : Descent → Window
  | running _ _ w | finished _ w | failed _ w => w

/-- The productions that are entered and not yet left; the one entered last comes first. -/
def entries : Descent → List (Production × Nat)
  | running stack _ _ => stack.entries
  | finished _ _ | failed _ _ => []

/-- What the parse of a file that starts here ends with, once it has ended. -/
def outcome? (start : Span) : Descent → Option (Except SyntaxFault File)
  | running _ _ _ => none
  | finished items w => some (.ok ⟨start.cover w.current.toToken.span, items⟩)
  | failed fault _ => some (.error fault)

end Descent
end PineLang
