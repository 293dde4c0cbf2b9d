import PineLang.Syntax.Arena
import PineLang.Syntax.Parser

/-!
# From lexemes to nodes

The parser puts what it reads into a builder: names into the interner as they are met, nodes into their arenas once all
that they refer to is there. A production answers with the number of its node and looks at the builder for the places
and the kinds of the nodes it holds.
-/
namespace PineLang

/-! ## Numbers of kinds -/

/-- The number of a binary operator. -/
def BinaryOp.number : BinaryOp → Nat
  | add => 0
  | sub => 1
  | mul => 2
  | div => 3
  | mod => 4
  | lt => 5
  | le => 6
  | gt => 7
  | ge => 8
  | eq => 9
  | ne => 10
  | and => 11
  | or => 12
  | other code => code

/-- The number of a prefix operator. -/
def UnaryOp.number : UnaryOp → Nat
  | neg => 0
  | not => 1
  | other code => code

/-- The kind number of a type. -/
def Ty.number : Ty → Nat
  | unit => 0
  | bool => 1
  | i8 => 2
  | i32 => 3
  | i64 => 4
  | u8 => 5
  | u32 => 6
  | u64 => 7
  | f32 => 8
  | f64 => 9
  | str => 10
  | struct _ => 11
  | other kind => kind

/-- The node of a literal. -/
def Literal.node : Literal → LiteralNode
  | bool value => { kind := 0, flag := value }
  | nil => { kind := 1 }
  | int value text => { kind := 2, int := value, text }
  | float value text => { kind := 3, float := value, text }
  | string text => { kind := 4, text }
  | other kind text => { kind, text }

/-! ## Looking at nodes -/

namespace Pool.Found

variable {κ : Type} {Data : κ → Type}

/-- The place of a node; nothing has none. -/
def span : Found κ Data → Span
  | missing => {}
  | hollow s _ => s
  | node s _ => s

/-- The kind of a node. -/
def kind? : Found κ Data → Option κ
  | missing => none
  | hollow _ k => some k
  | @node _ _ _ k _ => some k

end Pool.Found

namespace Builder

/-- The place of an expression. -/
def exprSpan (b : Builder) (id : Nat) : Span := (b.exprs.find id).span

/-- The place of a statement. -/
def stmtSpan (b : Builder) (id : Nat) : Span := (b.stmts.find id).span

/-- Only a variable or a field can be assigned to. -/
def isTarget (b : Builder) (id : Nat) : Bool :=
  match (b.exprs.find id).kind? with
  | some .ident | some .member => true
  | _ => false

/-- Says where a file is, once it is read. -/
def closeFile (b : Builder) (file : Nat) (span : Span) : Builder :=
  match b.files.get? file with
  | none => b
  | some f => { b with files := b.files.set file { f with span } }

end Builder

/-! ## Parsers with a builder -/

/-- A reader of lexemes that has a builder to itself. -/
def NodeParser (α : Type) := Builder → Parser (α × Builder)

namespace NodeParser

instance : Monad NodeParser where
  pure a := fun b => pure (a, b)
  bind q f := fun b => q b >>= fun r => f r.1 r.2

instance : MonadLift Parser NodeParser where
  monadLift p := fun b => p >>= fun a => pure (a, b)

/-- Puts something into the builder. -/
def put {α : Type} (op : Builder → α × Builder) : NodeParser α := fun b => pure (op b)

/-- Looks at the builder. -/
def look {α : Type} (f : Builder → α) : NodeParser α := fun b => pure (f b, b)

/-- Takes a name; the answer is its number. -/
def name : NodeParser (Nat × Span) := do
  let (text, span) ← Parser.name
  let id ← put (·.intern text)
  return (id, span)

/-- Takes a type. Only the name of a struct is kept. -/
def type : NodeParser TypeNode := do
  let ref ← Parser.type
  match ref.ty with
  | .struct text =>
    let id ← put (·.intern text)
    return ⟨ref.ty.number, id, ref.span⟩
  | ty => return ⟨ty.number, 0, ref.span⟩

/-- `name: type`. -/
def field : NodeParser ParamNode := do
  let (n, span) ← name
  let _ ← Parser.expect .colon
  let ty ← type
  return ⟨n, ty, span.cover ty.span⟩

/-! ## Expressions -/

/-- Makes a literal. -/
def literal (span : Span) (value : Literal) : NodeParser Nat := put (·.newExpr span (.lit value.node))

/-- Makes a variable. -/
def ident (span : Span) (text : String) : NodeParser Nat := do
  let n ← put (·.intern text)
  put (·.newExpr span (.ident n))

/-- Joins two operands. -/
def join (op : Joiner) (left right : Nat) : NodeParser Nat := do
  let first ← look (·.exprSpan left)
  let last ← look (·.exprSpan right)
  match op with
  | .op o => put (·.newExpr (first.cover last) (.binary o.number left right))
  | .assign =>
    if ← look (·.isTarget left) then put (·.newExpr (first.cover last) (.assign left right))
    else Parser.fail (.invalidTarget first)

mutual

/-- An expression whose operators have at least the given precedence. -/
def expr : Nat → Nat → NodeParser Nat
  | 0, _ => Parser.fail .exhausted
  | n + 1, least => do
    let left ← unary n
    exprTail n least left

/-- Goes on with the operators after a left operand. -/
def exprTail : Nat → Nat → Nat → NodeParser Nat
  | 0, _, _ => Parser.fail .exhausted
  | n + 1, least, left => do
    match (← Parser.kind).joiner? with
    | none => return left
    | some op =>
      if op.precedence < least then return left
      else
        let _ ← Parser.advance
        let right ← expr n op.rightPrecedence
        let joined ← join op left right
        exprTail n least joined

/-- Prefix operators and their operand. -/
def unary : Nat → NodeParser Nat
  | 0 => Parser.fail .exhausted
  | n + 1 => do
    match (← Parser.kind).unary? with
    | some op =>
      let t ← Parser.advance
      let operand ← unary n
      let last ← look (·.exprSpan operand)
      put (·.newExpr (t.span.cover last) (.unary op.number operand))
    | none =>
      let head ← primary n
      postfixes n head

/-- Calls and field accesses after an operand. -/
def postfixes : Nat → Nat → NodeParser Nat
  | 0, _ => Parser.fail .exhausted
  | n + 1, target => do
    match ← Parser.kind with
    | .lparen =>
      let _ ← Parser.advance
      let args ← arguments n
      let close ← Parser.expect .rparen
      let first ← look (·.exprSpan target)
      let called ← put (·.newExpr (first.cover close.span) (.call target args))
      postfixes n called
    | .dot =>
      let _ ← Parser.advance
      let (f, span) ← name
      let first ← look (·.exprSpan target)
      let member ← put (·.newExpr (first.cover span) (.member target f span))
      postfixes n member
    | _ => return target

/-- The arguments of a call, up to the closing parenthesis; one comma may trail. -/
def arguments : Nat → NodeParser (List Nat)
  | 0 => Parser.fail .exhausted
  | n + 1 => do
    if ← Parser.isAt .rparen then return []
    else
      let arg ← expr n 0
      if ← Parser.isAt .comma then
        let _ ← Parser.advance
        let rest ← arguments n
        return arg :: rest
      else return [arg]

/-- The fields of a struct literal, up to the closing brace; one comma may trail. -/
def fieldInits : Nat → NodeParser (List FieldNode)
  | 0 => Parser.fail .exhausted
  | n + 1 => do
    if ← Parser.isAt .rbrace then return []
    else
      let (f, span) ← name
      let _ ← Parser.expect .colon
      let value ← expr n 0
      let last ← look (·.exprSpan value)
      let init : FieldNode := ⟨f, span.cover last, value⟩
      if ← Parser.isAt .comma then
        let _ ← Parser.advance
        let rest ← fieldInits n
        return init :: rest
      else return [init]

/-- A name, a literal, a group, or a struct literal. -/
def primary : Nat → NodeParser Nat
  | 0 => Parser.fail .exhausted
  | n + 1 => do
    let t ← Parser.current
    match t.kind with
    | .ident =>
      let _ ← Parser.advance
      if ← Parser.isAt .lbrace then
        let s ← put (·.intern t.text)
        let _ ← Parser.advance
        let fields ← fieldInits n
        let close ← Parser.expect .rbrace
        put (·.newExpr (t.span.cover close.span) (.structLit s t.span fields))
      else ident t.span t.text
    | .kwSelf =>
      let _ ← Parser.advance
      ident t.span "self"
    | .intLit =>
      let _ ← Parser.advance
      literal t.span (.int t.payload.toInt t.text)
    | .floatLit =>
      let _ ← Parser.advance
      literal t.span (.float t.payload.toFloat t.text)
    | .stringLit =>
      let _ ← Parser.advance
      literal t.span (.string t.text)
    | .kwTrue =>
      let _ ← Parser.advance
      literal t.span (.bool true)
    | .kwFalse =>
      let _ ← Parser.advance
      literal t.span (.bool false)
    | .kwNil =>
      let _ ← Parser.advance
      literal t.span .nil
    | .lparen =>
      let _ ← Parser.advance
      let inner ← expr n 0
      let close ← Parser.expect .rparen
      put (·.newExpr (t.span.cover close.span) (.group inner))
    | _ => Parser.unexpected ["expression"]

end

/-! ## Statements

A statement comes with a flag: it is set if the statement ended in an indented body, which has
taken the end of its last line. -/

/-- Makes a block of statements, from the first to the last. -/
def block : List Nat → NodeParser Nat
  | [] => put (·.newStmt {} (.block []))
  | s :: rest => do
    let first ← look (·.stmtSpan s)
    let last ← look (·.stmtSpan ((s :: rest).getLastD s))
    put (·.newStmt (first.cover last) (.block (s :: rest)))

/-- Makes a block of one statement. -/
def blockOf (s : Nat) : NodeParser Nat := do
  let span ← look (·.stmtSpan s)
  put (·.newStmt span (.block [s]))

mutual

/-- What follows a colon: one statement on the same line, or an indented body. -/
def body : Nat → NodeParser (Nat × Bool)
  | 0 => Parser.fail .exhausted
  | n + 1 => do
    if ← Parser.isAt .newLine then
      let _ ← Parser.advance
      let _ ← Parser.expect .indent
      let stmts ← bodyStmts n
      let made ← block stmts
      return (made, true)
    else
      let (s, closed) ← stmt n
      let made ← blockOf s
      return (made, closed)

/-- The statements of an indented body, and its end. -/
def bodyStmts : Nat → NodeParser (List Nat)
  | 0 => Parser.fail .exhausted
  | n + 1 => do
    let (s, closed) ← stmt n
    Parser.endOfStmt closed
    if ← Parser.isAt .dedent then
      let _ ← Parser.advance
      return [s]
    else
      let rest ← bodyStmts n
      return s :: rest

/-- One statement, without the end of its line. -/
def stmt : Nat → NodeParser (Nat × Bool)
  | 0 => Parser.fail .exhausted
  | n + 1 => do
    let t ← Parser.current
    match t.kind with
    | .kwIf => conditional n
    | .kwReturn =>
      let _ ← Parser.advance
      if Parser.endsReturn (← Parser.kind) then
        let made ← put (·.newStmt t.span (.ret 0))
        return (made, false)
      else
        let value ← expr n 0
        let last ← look (·.exprSpan value)
        let made ← put (·.newStmt (t.span.cover last) (.ret value))
        return (made, false)
    | .kwBreak =>
      let _ ← Parser.advance
      let made ← put (·.newBreak t.span)
      return (made, false)
    | .kwLoop =>
      let _ ← Parser.advance
      let _ ← Parser.expect .colon
      let (inner, closed) ← body n
      let last ← look (·.stmtSpan inner)
      let made ← put (·.newStmt (t.span.cover last) (.loop inner))
      return (made, closed)
    | .kwLet =>
      let _ ← Parser.advance
      let (x, nameSpan) ← name
      let _ ← Parser.expect .colon
      let ty ← type
      let _ ← Parser.expect .assign
      let value ← expr n 0
      let last ← look (·.exprSpan value)
      let made ← put (·.newStmt (t.span.cover last) (.bind x nameSpan ty value))
      return (made, false)
    | .underscore =>
      let _ ← Parser.advance
      let made ← put (·.newEmpty t.span)
      return (made, false)
    | _ =>
      let x ← expr n 0
      let span ← look (·.exprSpan x)
      let made ← put (·.newStmt span (.expr x))
      return (made, false)

/-- An `if` with its branches. An `else` goes on with the statement even after an indented body,
    and belongs to the nearest `if`. -/
def conditional : Nat → NodeParser (Nat × Bool)
  | 0 => Parser.fail .exhausted
  | n + 1 => do
    let t ← Parser.advance
    let test ← expr n 0
    let _ ← Parser.expect .colon
    let (yes, closed) ← body n
    if ← Parser.isAt .kwElse then
      let _ ← Parser.advance
      match ← Parser.kind with
      | .kwIf =>
        let (nested, closed) ← conditional n
        let no ← blockOf nested
        let last ← look (·.stmtSpan no)
        let made ← put (·.newStmt (t.span.cover last) (.cond test yes no))
        return (made, closed)
      | .colon =>
        let _ ← Parser.advance
        let (no, closed) ← body n
        let last ← look (·.stmtSpan no)
        let made ← put (·.newStmt (t.span.cover last) (.cond test yes no))
        return (made, closed)
      | _ => Parser.unexpected [":", "if"]
    else
      let last ← look (·.stmtSpan yes)
      let made ← put (·.newStmt (t.span.cover last) (.cond test yes 0))
      return (made, closed)

end

/-! ## Items -/

/-- The parameters of a function, up to the closing parenthesis. -/
def params : Nat → NodeParser (List ParamNode)
  | 0 => Parser.fail .exhausted
  | n + 1 => do
    let p ← field
    if ← Parser.isAt .comma then
      let _ ← Parser.advance
      let rest ← params n
      return p :: rest
    else return [p]

/-- A function. -/
def fnItem (n : Nat) : NodeParser (Nat × Bool) := do
  let t ← Parser.advance
  let (f, nameSpan) ← name
  let _ ← Parser.expect .lparen
  let ps ← if ← Parser.isAt .rparen then pure [] else params n
  let _ ← Parser.expect .rparen
  let _ ← Parser.expect .arrow
  let ret ← type
  let _ ← Parser.expect .colon
  let (inner, closed) ← body n
  let last ← look (·.stmtSpan inner)
  let made ← put (·.newFn f nameSpan ps ret inner (t.span.cover last))
  return (made, closed)

/-- The fields of an indented struct, one to a line, and its end. -/
def fieldLines : Nat → NodeParser (List ParamNode)
  | 0 => Parser.fail .exhausted
  | n + 1 => do
    let f ← field
    Parser.endOfStmt false
    if ← Parser.isAt .dedent then
      let _ ← Parser.advance
      return [f]
    else
      let rest ← fieldLines n
      return f :: rest

/-- The fields of a struct in braces; one comma may trail. -/
def bracedFields : Nat → NodeParser (List ParamNode)
  | 0 => Parser.fail .exhausted
  | n + 1 => do
    if ← Parser.isAt .rbrace then return []
    else
      let f ← field
      if ← Parser.isAt .comma then
        let _ ← Parser.advance
        let rest ← bracedFields n
        return f :: rest
      else return [f]

/-- A struct, with its fields indented or in braces. -/
def structItem (n : Nat) : NodeParser (Nat × Bool) := do
  let t ← Parser.advance
  let (s, nameSpan) ← name
  match ← Parser.kind with
  | .colon =>
    let _ ← Parser.advance
    let _ ← Parser.expect .newLine
    let _ ← Parser.expect .indent
    let fields ← fieldLines n
    let last := (fields.getLast?.map (·.span)).getD {}
    let made ← put (·.newStruct s nameSpan fields (t.span.cover last))
    return (made, true)
  | .lbrace =>
    let _ ← Parser.advance
    let fields ← bracedFields n
    let close ← Parser.expect .rbrace
    let made ← put (·.newStruct s nameSpan fields (t.span.cover close.span))
    return (made, false)
  | _ => Parser.unexpected [":", "\x7b"]

/-- A declaration. -/
def item (n : Nat) : NodeParser (Nat × Bool) := do
  match ← Parser.kind with
  | .kwFun => fnItem n
  | .kwType => structItem n
  | _ => Parser.unexpected ["fun", "type"]

/-- Puts an item at the end of a file. -/
def pushItem (file item : Nat) : NodeParser Unit := put fun b => ((), (b.pushItem? file item).getD b)

/-- The items up to the end of the file. Each is put into the file before the end of its line is read. -/
def items (cancelled : Bool) (file : Nat) : Nat → NodeParser Unit
  | 0 => Parser.fail .exhausted
  | n + 1 => do
    match ← Parser.kind with
    | .newLine =>
      let _ ← Parser.advance
      items cancelled file n
    | .eof => return ()
    | _ =>
      if cancelled then Parser.fail .cancelled
      else
        let (i, closed) ← item n
        pushItem file i
        Parser.endOfItem closed
        items cancelled file n

end NodeParser

/-- Parses the lexemes of one file into a builder; the answer is the number of the file. -/
def parseInto (b : Builder) (ls : List Lexeme) (cancelled : Bool := false) : Except SyntaxError (Nat × Builder) :=
  let first := (ls.head?.map fun l => l.toToken.span).getD {}
  let (file, b) := b.newFile first
  match NodeParser.items cancelled file (Parser.depthBound ls.length) b ls with
  | .error e => .error e
  | .ok (((), b), rest) =>
    let last := (rest.head?.map fun l => l.toToken.span).getD {}
    .ok (file, b.closeFile file (first.cover last))

end PineLang
