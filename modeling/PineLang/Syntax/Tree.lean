import PineLang.Number.Double
import PineLang.Source.Span

/-!
# Syntax trees

The trees of the language, with the spans of their source. Trees put together by hand can have
places that no node fills, and nodes that have a kind but no content; the parser makes neither.
-/
namespace PineLang

/-! ## Types -/

/-- What a type annotation says. -/
inductive Ty where
  | unit | bool | i8 | i32 | i64 | u8 | u32 | u64 | f32 | f64 | str
  | struct (name : String)
  /-- A kind number that names no type. -/
  | other (kind : Nat)
  deriving DecidableEq, Repr, Inhabited

/-- The type as it is written. -/
def Ty.text : Ty → String
  | unit => "_"
  | bool => "bool"
  | i8 => "i8"
  | i32 => "i32"
  | i64 => "i64"
  | u8 => "u8"
  | u32 => "u32"
  | u64 => "u64"
  | f32 => "f32"
  | f64 => "f64"
  | str => "str"
  | struct name => name
  | other _ => "?"

/-- A type annotation and its place. -/
structure TypeRef where
  ty : Ty
  span : Span := {}
  deriving DecidableEq, Repr, Inhabited

/-- A name with a type: a parameter of a function or a field of a struct. -/
structure Param where
  name : String
  type : TypeRef
  span : Span := {}
  deriving DecidableEq, Repr, Inhabited

/-! ## Expressions -/

/-- Prefix operators. -/
inductive UnaryOp where
  | neg | not
  /-- A number that names no operator; it is written as a minus sign. -/
  | other (code : Nat)
  deriving DecidableEq, Repr, Inhabited

/-- The operator as it is written. -/
def UnaryOp.text : UnaryOp → String
  | not => "!"
  | _ => "-"

/-- Binary operators. -/
inductive BinaryOp where
  | add | sub | mul | div | mod
  | lt | le | gt | ge | eq | ne
  | and | or
  /-- A number that names no operator. -/
  | other (code : Nat)
  deriving DecidableEq, Repr, Inhabited

/-- The operator as it is written. -/
def BinaryOp.text : BinaryOp → String
  | add => "+"
  | sub => "-"
  | mul => "*"
  | div => "/"
  | mod => "%"
  | lt => "<"
  | le => "<="
  | gt => ">"
  | ge => ">="
  | eq => "=="
  | ne => "!="
  | and => "and"
  | or => "or"
  | other _ => "?"

/-- Literals. A number keeps its spelling, a string holds what it denotes. -/
inductive Literal where
  | bool (value : Bool)
  | nil
  | int (value : UInt64) (text : String)
  | float (value : Double) (text : String)
  | string (text : String)
  /-- A kind number that names no kind of literal. -/
  | other (kind : Nat) (text : String)
  deriving DecidableEq, Repr, Inhabited

mutual

/-- Expressions. -/
inductive Expr where
  | ident (span : Span) (name : String)
  | lit (span : Span) (value : Literal)
  | assign (span : Span) (target value : Expr)
  | call (span : Span) (callee : Expr) (args : List Expr)
  | member (span : Span) (target : Expr) (field : String) (fieldSpan : Span)
  | unary (span : Span) (op : UnaryOp) (operand : Expr)
  | binary (span : Span) (op : BinaryOp) (left right : Expr)
  | group (span : Span) (inner : Expr)
  | structLit (span : Span) (name : String) (nameSpan : Span) (fields : List FieldInit)
  /-- A place that refers to a node that is not there; zero refers to none. -/
  | absent (id : Nat)
  /-- A node of this kind number without content. -/
  | hollow (span : Span) (kind : Nat)

/-- One `name: value` of a struct literal. -/
inductive FieldInit where
  | mk (name : String) (span : Span) (value : Expr)

end

deriving instance Repr for Expr
deriving instance Inhabited for Expr, FieldInit

/-- The field that is given a value. -/
def FieldInit.name : FieldInit → String
  | mk n _ _ => n

/-- From the name to the end of the value. -/
def FieldInit.span : FieldInit → Span
  | mk _ s _ => s

/-- The value given to the field. -/
def FieldInit.value : FieldInit → Expr
  | mk _ _ v => v

/-- The place of an expression. -/
def Expr.span : Expr → Span
  | ident s _ | lit s _ | assign s _ _ | call s _ _ | member s _ _ _ | unary s _ _
  | binary s _ _ _ | group s _ | structLit s _ _ _ | hollow s _ => s
  | absent _ => {}

/-! ## Statements -/

mutual

/-- Statements. -/
inductive Stmt where
  | block (span : Span) (stmts : List Stmt)
  | expr (span : Span) (x : Expr)
  | cond (span : Span) (test : Expr) (yes : Body) (no : Option Body)
  | ret (span : Span) (value : Option Expr)
  | brk (span : Span)
  | bind (span : Span) (name : String) (nameSpan : Span) (type : TypeRef) (value : Expr)
  | loop (span : Span) (body : Body)
  | empty (span : Span)
  /-- A place that refers to a node that is not there. -/
  | absent (id : Nat)
  /-- A node of this kind number without content. -/
  | hollow (span : Span) (kind : Nat)

/-- What stands where a block is called for. -/
inductive Body where
  | block (span : Span) (stmts : List Stmt)
  /-- Another statement, known by its number. -/
  | stray (id : Nat) (stmt : Stmt)

end

deriving instance Repr for Stmt
deriving instance Inhabited for Stmt, Body

/-- The place of a statement. -/
def Stmt.span : Stmt → Span
  | block s _ | expr s _ | cond s _ _ _ | ret s _ | brk s | bind s _ _ _ _ | loop s _ | empty s
  | hollow s _ => s
  | absent _ => {}

/-- The place of a body. -/
def Body.span : Body → Span
  | block s _ => s
  | stray _ s => s.span

/-! ## Files -/

/-- A function. -/
structure FnDecl where
  name : String
  nameSpan : Span
  params : List Param
  ret : TypeRef
  body : Body
  span : Span
  deriving Inhabited

/-- A struct. -/
structure StructDecl where
  name : String
  nameSpan : Span
  fields : List Param
  span : Span
  deriving Inhabited, DecidableEq, Repr

/-- A declaration at the top level. -/
inductive Item where
  | fn (decl : FnDecl)
  | struct (decl : StructDecl)
  /-- A place that refers to a node that is not there. -/
  | absent (id : Nat)
  /-- A node of this kind number without content. -/
  | hollow (span : Span) (kind : Nat)
  deriving Inhabited

/-- The place of an item. -/
def Item.span : Item → Span
  | fn d => d.span
  | struct d => d.span
  | absent _ => {}
  | hollow s _ => s

/-- The declarations of one source. -/
structure File where
  span : Span
  items : List Item
  deriving Inhabited

end PineLang
