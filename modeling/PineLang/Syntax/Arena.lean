import PineLang.Lower
import PineLang.Source.Interner
import PineLang.Syntax.Walk

/-!
# Trees put together node by node

A builder keeps its nodes in arenas and its names in an interner, and a node refers to others and to
names by number, whether they are there or not. Every node has a head with its kind and its span, and
the number of what it holds in the arena of that kind. Reading a file out of the builder unfolds the
references: a number without a node becomes an absent place, a node without content stays hollow, and a
body that is not a block keeps its number.
-/
namespace PineLang

/-! ## Arenas -/

/-- A store that numbers what is put into it from one; zero numbers nothing. -/
structure Arena (α : Type) where
  nodes : Array α := #[]

namespace Arena

variable {α : Type}

/-- How many there are. -/
def size (a : Arena α) : Nat := a.nodes.size

/-- What has a number. -/
def get? (a : Arena α) (id : Nat) : Option α := if id = 0 then none else a.nodes[id - 1]?

/-- Puts something in; the answer is its number. -/
def alloc (a : Arena α) (x : α) : Nat × Arena α := (a.size + 1, ⟨a.nodes.push x⟩)

/-- Changes what has a number, if there is such. -/
def set (a : Arena α) (id : Nat) (x : α) : Arena α := ⟨a.nodes.setIfInBounds (id - 1) x⟩

end Arena

/-- The head of a node. The payload numbers what the node holds in the arena of its kind. -/
structure Head (κ : Type) where
  kind : κ
  span : Span
  payload : Nat := 0
  deriving Repr

/-- The nodes of one sort: their heads, and an arena for what the nodes of each kind hold. -/
structure Pool (κ : Type) (Data : κ → Type) where
  heads : Arena (Head κ) := {}
  data : (k : κ) → Arena (Data k) := fun _ => {}

namespace Pool

variable {κ : Type} {Data : κ → Type}

/-- What a number leads to. -/
inductive Found (κ : Type) (Data : κ → Type) where
  | missing
  /-- A head whose payload is nowhere. -/
  | hollow (span : Span) (kind : κ)
  | node (span : Span) {kind : κ} (data : Data kind)

/-- The node of a number. -/
def find (p : Pool κ Data) (id : Nat) : Found κ Data :=
  match p.heads.get? id with
  | none => .missing
  | some h =>
    match (p.data h.kind).get? h.payload with
    | none => .hollow h.span h.kind
    | some x => .node h.span x

/-- The kind of the node of a number. -/
def kind? (p : Pool κ Data) (id : Nat) : Option κ := (p.heads.get? id).map (·.kind)

/-- A node that holds nothing; the answer is its number. -/
def bare (p : Pool κ Data) (span : Span) (kind : κ) : Nat × Pool κ Data :=
  let (id, heads) := p.heads.alloc ⟨kind, span, 0⟩
  (id, { p with heads })

/-- A node with what it holds; the answer is its number. -/
def make [DecidableEq κ] (p : Pool κ Data) (span : Span) {kind : κ} (x : Data kind) : Nat × Pool κ Data :=
  let (payload, arena) := (p.data kind).alloc x
  let (id, heads) := p.heads.alloc ⟨kind, span, payload⟩
  (id, ⟨heads, fun k => if same : kind = k then same ▸ arena else p.data k⟩)

end Pool

/-! ## Nodes -/

/-- A type annotation: the number of its kind and that of its name. -/
structure TypeNode where
  kind : Nat
  name : Nat := 0
  span : Span := {}
  deriving Repr

/-- A parameter or a field. -/
structure ParamNode where
  name : Nat
  type : TypeNode
  span : Span := {}
  deriving Repr

/-- The kinds of expressions. -/
inductive ExprKind where
  | ident | lit | assign | call | member | unary | binary | group | structLit
  /-- A number that names no kind. -/
  | other (code : Nat)
  deriving DecidableEq, Repr

/-- The number of a kind. -/
def ExprKind.number : ExprKind → Nat
  | ident => 0
  | lit => 1
  | assign => 2
  | call => 3
  | member => 4
  | unary => 5
  | binary => 6
  | group => 7
  | structLit => 8
  | other code => code

/-- The kinds with a name, in the order of their numbers. -/
def ExprKind.all : List ExprKind := [ident, lit, assign, call, member, unary, binary, group, structLit]

/-- The kind of a number. -/
def ExprKind.ofNumber (code : Nat) : ExprKind := all.getD code (other code)

/-- A literal: the number of its kind, and the value it would have as each. -/
structure LiteralNode where
  kind : Nat
  flag : Bool := false
  int : UInt64 := 0
  float : Double := ⟨0⟩
  text : String := ""
  deriving Repr

/-- One `name: value` of a struct literal. -/
structure FieldNode where
  name : Nat
  span : Span := {}
  value : Nat
  deriving Repr

/-- What an expression of each kind holds. -/
inductive ExprData : ExprKind → Type where
  | ident (name : Nat) : ExprData .ident
  | lit (value : LiteralNode) : ExprData .lit
  | assign (target value : Nat) : ExprData .assign
  | call (callee : Nat) (args : List Nat) : ExprData .call
  | member (target field : Nat) (fieldSpan : Span) : ExprData .member
  | unary (op operand : Nat) : ExprData .unary
  | binary (op left right : Nat) : ExprData .binary
  | group (inner : Nat) : ExprData .group
  | structLit (name : Nat) (nameSpan : Span) (fields : List FieldNode) : ExprData .structLit

/-- The kinds of statements. -/
inductive StmtKind where
  | block | expr | cond | ret | brk | bind | loop | empty
  /-- A number that names no kind. -/
  | other (code : Nat)
  deriving DecidableEq, Repr

/-- The number of a kind. -/
def StmtKind.number : StmtKind → Nat
  | block => 0
  | expr => 1
  | cond => 2
  | ret => 3
  | brk => 4
  | bind => 5
  | loop => 6
  | empty => 7
  | other code => code

/-- The kinds with a name, in the order of their numbers. -/
def StmtKind.all : List StmtKind := [block, expr, cond, ret, brk, bind, loop, empty]

/-- The kind of a number. -/
def StmtKind.ofNumber (code : Nat) : StmtKind := all.getD code (other code)

/-- What a statement of each kind holds; a break and an empty statement are no more than a head. -/
inductive StmtData : StmtKind → Type where
  | block (stmts : List Nat) : StmtData .block
  | expr (x : Nat) : StmtData .expr
  | cond (test yes no : Nat) : StmtData .cond
  | ret (value : Nat) : StmtData .ret
  | bind (name : Nat) (nameSpan : Span) (type : TypeNode) (value : Nat) : StmtData .bind
  | loop (body : Nat) : StmtData .loop

/-- The kinds of items. -/
inductive ItemKind where
  | fn | struct
  /-- A number that names no kind. -/
  | other (code : Nat)
  deriving DecidableEq, Repr

/-- The number of a kind. -/
def ItemKind.number : ItemKind → Nat
  | fn => 0
  | struct => 1
  | other code => code

/-- The kind of a number. -/
def ItemKind.ofNumber : Nat → ItemKind
  | 0 => fn
  | 1 => struct
  | code => other code

/-- A run of parameters in their arena: the number of the first, and how many there are. -/
structure ParamRange where
  start : Nat
  count : Nat
  deriving Repr

/-- A function without its body. -/
structure FnNode where
  name : Nat
  nameSpan : Span
  params : ParamRange
  ret : TypeNode
  body : Nat
  span : Span
  deriving Repr

/-- A struct. -/
structure StructNode where
  name : Nat
  nameSpan : Span
  fields : ParamRange
  span : Span
  deriving Repr

/-- What an item of each kind holds. -/
inductive ItemData : ItemKind → Type where
  | fn (decl : FnNode) : ItemData .fn
  | struct (decl : StructNode) : ItemData .struct

/-- A file: the numbers of its items. -/
structure FileNode where
  span : Span
  items : List Nat := []
  deriving Repr

/-! ## Builders -/

/-- All nodes made so far. -/
structure Builder where
  strings : Interner := .empty
  exprs : Pool ExprKind ExprData := {}
  stmts : Pool StmtKind StmtData := {}
  items : Pool ItemKind ItemData := {}
  params : Arena ParamNode := {}
  files : Arena FileNode := {}

namespace Builder

/-- The number of a name. -/
def intern (b : Builder) (name : String) : Nat × Builder :=
  let (id, strings) := b.strings.intern name
  (id, { b with strings })

/-- Makes an expression; the answer is its number. -/
def newExpr (b : Builder) (span : Span) {kind : ExprKind} (x : ExprData kind) : Nat × Builder :=
  let (id, exprs) := b.exprs.make span x
  (id, { b with exprs })

/-- Makes a statement; the answer is its number. -/
def newStmt (b : Builder) (span : Span) {kind : StmtKind} (s : StmtData kind) : Nat × Builder :=
  let (id, stmts) := b.stmts.make span s
  (id, { b with stmts })

/-- Makes a head of an expression that holds nothing. -/
def bareExpr (b : Builder) (span : Span) (kind : ExprKind) : Nat × Builder :=
  let (id, exprs) := b.exprs.bare span kind
  (id, { b with exprs })

/-- Makes a head of a statement that holds nothing. -/
def bareStmt (b : Builder) (span : Span) (kind : StmtKind) : Nat × Builder :=
  let (id, stmts) := b.stmts.bare span kind
  (id, { b with stmts })

/-- Makes a head of an item that holds nothing. -/
def bareItem (b : Builder) (span : Span) (kind : ItemKind) : Nat × Builder :=
  let (id, items) := b.items.bare span kind
  (id, { b with items })

/-- Makes a break statement. -/
def newBreak (b : Builder) (span : Span) : Nat × Builder := b.bareStmt span .brk

/-- Makes an empty statement. -/
def newEmpty (b : Builder) (span : Span) : Nat × Builder := b.bareStmt span .empty

/-- Puts parameters side by side; no parameters are the range from zero. -/
def allocParams (b : Builder) (ps : List ParamNode) : ParamRange × Builder :=
  if ps.isEmpty then (⟨0, 0⟩, b)
  else (⟨b.params.size + 1, ps.length⟩, { b with params := ps.foldl (fun a p => (a.alloc p).2) b.params })

/-- The parameters of a range; none if it reaches over the end of the arena. -/
def paramRange? (b : Builder) (r : ParamRange) : Option (List ParamNode) :=
  if r.start = 0 ∨ r.count = 0 then some []
  else if r.start - 1 + r.count ≤ b.params.size then
    some ((b.params.nodes.toList.drop (r.start - 1)).take r.count)
  else none

/-- Makes a function; the answer is its number. -/
def newFn (b : Builder) (name : Nat) (nameSpan : Span) (params : List ParamNode) (ret : TypeNode) (body : Nat)
    (span : Span) : Nat × Builder :=
  let (range, b) := b.allocParams params
  let (id, items) := b.items.make span (.fn ⟨name, nameSpan, range, ret, body, span⟩)
  (id, { b with items })

/-- Makes a struct; the answer is its number. -/
def newStruct (b : Builder) (name : Nat) (nameSpan : Span) (fields : List ParamNode) (span : Span) : Nat × Builder :=
  let (range, b) := b.allocParams fields
  let (id, items) := b.items.make span (.struct ⟨name, nameSpan, range, span⟩)
  (id, { b with items })

/-- Makes a file without items; the answer is its number. -/
def newFile (b : Builder) (span : Span) : Nat × Builder :=
  let (id, files) := b.files.alloc ⟨span, []⟩
  (id, { b with files })

/-- Puts an item at the end of a file that is there. -/
def pushItem? (b : Builder) (file item : Nat) : Option Builder :=
  (b.files.get? file).map fun f => { b with files := b.files.set file { f with items := f.items ++ [item] } }

/-- The name of a number; a number that names nothing is read as the empty name. -/
def name (b : Builder) (id : Nat) : String := (b.strings.lookup id).getD ""

end Builder

/-! ## Numbers in nodes -/

/-- The binary operators in the order of their numbers. -/
def BinaryOp.all : List BinaryOp := [add, sub, mul, div, mod, lt, le, gt, ge, eq, ne, and, or]

/-- The binary operator of a number. -/
def BinaryOp.ofNumber (code : Nat) : BinaryOp := all.getD code (.other code)

/-- The prefix operator of a number. -/
def UnaryOp.ofNumber : Nat → UnaryOp
  | 0 => .neg
  | 1 => .not
  | code => .other code

/-- The built-in types in the order of their numbers. -/
def Ty.builtin : List Ty := [unit, bool, i8, i32, i64, u8, u32, u64, f32, f64, str]

/-- The type of a kind number; the name counts for structs only. -/
def Ty.ofNumber (kind : Nat) (name : String) : Ty :=
  if kind = builtin.length then .struct name else builtin.getD kind (.other kind)

/-- The literal of a node. -/
def LiteralNode.literal (v : LiteralNode) : Literal :=
  match v.kind with
  | 0 => .bool v.flag
  | 1 => .nil
  | 2 => .int v.int v.text
  | 3 => .float v.float v.text
  | 4 => .string v.text
  | kind => .other kind v.text

/-! ## Unfolding -/

/-- What a number stands for, where `step` says what it is made of; references are followed at most `fuel` deep. -/
def unfolded {α : Type} (step : (Nat → α) → Nat → α) (stop : Nat → α) : Nat → Nat → α
  | 0, id => stop id
  | fuel + 1, id => step (unfolded step stop fuel) id

namespace Builder

/-- A type annotation with its name. -/
def typeRef (b : Builder) (t : TypeNode) : TypeRef := ⟨.ofNumber t.kind (b.name t.name), t.span⟩

/-- A parameter with its name. -/
def param (b : Builder) (p : ParamNode) : Param := ⟨b.name p.name, b.typeRef p.type, p.span⟩

/-- The expression of a number, made of those that `sub` gives for others. -/
def exprStep (b : Builder) (sub : Nat → Expr) (id : Nat) : Expr :=
  match b.exprs.find id with
  | .missing => .absent id
  | .hollow s k => .hollow s k.number
  | .node s (.ident n) => .ident s (b.name n)
  | .node s (.lit v) => .lit s v.literal
  | .node s (.assign x y) => .assign s (sub x) (sub y)
  | .node s (.call f xs) => .call s (sub f) (xs.map sub)
  | .node s (.member x f fs) => .member s (sub x) (b.name f) fs
  | .node s (.unary op x) => .unary s (.ofNumber op) (sub x)
  | .node s (.binary op x y) => .binary s (.ofNumber op) (sub x) (sub y)
  | .node s (.group x) => .group s (sub x)
  | .node s (.structLit n ns fs) => .structLit s (b.name n) ns (fs.map fun f => .mk (b.name f.name) f.span (sub f.value))

/-- The expression of a number. References that do not run in a circle are at most as deep as
    there are nodes. -/
def expr (b : Builder) : Nat → Expr := unfolded b.exprStep .absent (b.exprs.heads.size + 1)

/-- A statement where a block is called for. -/
def bodyOf (id : Nat) : Stmt → Body
  | .block s ss => .block s ss
  | s => .stray id s

/-- The statement of a number, made of those that `sub` gives for others. -/
def stmtStep (b : Builder) (sub : Nat → Stmt) (id : Nat) : Stmt :=
  match b.stmts.find id with
  | .missing => .absent id
  | .hollow s .brk => .brk s
  | .hollow s .empty => .empty s
  | .hollow s k => .hollow s k.number
  | .node s (.block ss) => .block s (ss.map sub)
  | .node s (.expr x) => .expr s (b.expr x)
  | .node s (.cond t y n) =>
    .cond s (b.expr t) (bodyOf y (sub y)) (if n = 0 then none else some (bodyOf n (sub n)))
  | .node s (.ret x) => .ret s (if x = 0 then none else some (b.expr x))
  | .node s (.bind n ns ty x) => .bind s (b.name n) ns (b.typeRef ty) (b.expr x)
  | .node s (.loop y) => .loop s (bodyOf y (sub y))

/-- The statement of a number. -/
def stmt (b : Builder) : Nat → Stmt := unfolded b.stmtStep .absent (b.stmts.heads.size + 1)

/-- The item of a number. An item whose parameters are not there is without content. -/
def item (b : Builder) (id : Nat) : Item :=
  match b.items.find id with
  | .missing => .absent id
  | .hollow s k => .hollow s k.number
  | .node s (.fn d) =>
    match b.paramRange? d.params with
    | none => .hollow s 0
    | some ps =>
      .fn ⟨b.name d.name, d.nameSpan, ps.map b.param, b.typeRef d.ret, bodyOf d.body (b.stmt d.body), d.span⟩
  | .node s (.struct d) =>
    match b.paramRange? d.fields with
    | none => .hollow s 1
    | some fs => .struct ⟨b.name d.name, d.nameSpan, fs.map b.param, d.span⟩

/-- The file of a number. -/
def file? (b : Builder) (id : Nat) : Option File := (b.files.get? id).map fun f => ⟨f.span, f.items.map b.item⟩

/-- The C unit of a file. -/
def lower (b : Builder) (file : Nat) (name : String) : Except LowerFault C.CUnit :=
  match b.file? file with
  | none => .error (.fileMissing file)
  | some f => f.lower name

end Builder

/-! ## Kinds -/

/-- The names of the kinds of expression, in order. -/
def exprKindNames : List String :=
  ["ident", "lit", "assign", "call", "member", "unary", "binary", "group", "struct_lit"]

/-- The names of the kinds of statement, in order. -/
def stmtKindNames : List String :=
  ["block", "expr", "if", "return", "break", "let", "loop", "empty"]

/-- The name of a kind of statement. -/
def stmtKindName (kind : Nat) : String := stmtKindNames.getD kind "unknown"

/-- The name of a kind of visited node. -/
def nodeKindName (kind : Nat) : String := ((NodeKind.all[kind]?).map NodeKind.name).getD "node"

namespace Builder

/-- The names of the nodes, of all sorts, that a number stands for and that have content of their
    kind. -/
def contents (b : Builder) (id : Nat) : List String :=
  let exprs := (b.exprs.kind? id).bind fun k => exprKindNames[k.number]?
  let stmts := (b.stmts.kind? id).bind fun k =>
    match k with
    | .expr => some "expr_stmt"
    | .brk | .empty => none
    | k => stmtKindNames[k.number]?
  let items := (b.items.kind? id).bind fun k => ["fn", "type"][k.number]?
  [exprs, stmts, items].filterMap fun x => x

end Builder

end PineLang
