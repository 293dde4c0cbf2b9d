import PineLang.Number.Double
import PineLang.Text.Utf8

/-!
# C trees

The part of C that a unit of generated code is made of. Numbers that name no operator or type, and
places where a node is missing, have trees too.
-/
namespace PineLang.C

/-! ## Types -/

/-- Types that can be spelled. -/
inductive CType where
  | void
  | u8 | u16 | u32 | u64 | usize
  | i8 | i16 | i32 | i64 | isize
  | f32 | f64
  | str
  | struct (name : String)
  | ptr (elem : CType)
  /-- A pointer to nothing in particular. -/
  | anyPtr
  /-- A kind number that names no type. -/
  | other (kind : Nat)
  deriving DecidableEq, Repr, Inhabited

/-- The type as C spells it. -/
@[simp] def CType.text : CType → String
  | void => "void"
  | u8 => "uint8_t"
  | u16 => "uint16_t"
  | u32 => "uint32_t"
  | u64 => "uint64_t"
  | usize => "size_t"
  | i8 => "int8_t"
  | i16 => "int16_t"
  | i32 => "int32_t"
  | i64 => "int64_t"
  | isize => "ssize_t"
  | f32 => "float"
  | f64 => "double"
  | str => "char*"
  | struct name => name
  | ptr elem => elem.text ++ "*"
  | anyPtr => "void*"
  | other _ => "void"

/-- The primitive types in the order of their numbers. -/
def CType.primitives : List CType :=
  [void, u8, u16, u32, u64, usize, i8, i16, i32, i64, isize, f32, f64, str]

/-- The type with a kind number and nothing else. -/
def CType.ofNat (n : Nat) : CType :=
  match primitives[n]?, n with
  | some t, _ => t
  | none, 14 => struct ""
  | none, 15 => anyPtr
  | none, n => other n

/-! ## Operators -/

/-- Operators with one operand. -/
inductive UnaryOp where
  | minus | plus | not | complement | address | deref | preInc | preDec | postInc | postDec
  | other (code : Nat)
  deriving DecidableEq, Repr, Inhabited

namespace UnaryOp

/-- The operators in the order of their numbers. -/
def all : List UnaryOp :=
  [minus, plus, not, complement, address, deref, preInc, preDec, postInc, postDec]

/-- The operator with a number. -/
def ofNat (n : Nat) : UnaryOp := all[n]?.getD (other n)

/-- The operator as C spells it. -/
def text : UnaryOp → String
  | minus => "-"
  | plus => "+"
  | not => "!"
  | complement => "~"
  | address => "&"
  | deref => "*"
  | preInc | postInc => "++"
  | preDec | postDec => "--"
  | other _ => "?"

/-- The operator stands behind its operand. -/
def isPost : UnaryOp → Bool
  | postInc | postDec => true
  | _ => false

end UnaryOp

/-- Operators with two operands. -/
inductive BinaryOp where
  | index
  | mul | div | mod | add | sub | shl | shr
  | lt | gt | le | ge | eq | ne
  | bitAnd | bitXor | bitOr | and | or
  | other (code : Nat)
  deriving DecidableEq, Repr, Inhabited

namespace BinaryOp

/-- The operators in the order of their numbers. -/
def all : List BinaryOp :=
  [index, mul, div, mod, add, sub, shl, shr, lt, gt, le, ge, eq, ne, bitAnd, bitXor, bitOr, and, or]

/-- The operator with a number. -/
def ofNat (n : Nat) : BinaryOp := all[n]?.getD (other n)

/-- The operator as C spells it. -/
def text : BinaryOp → String
  | index => "[]"
  | mul => "*"
  | div => "/"
  | mod => "%"
  | add => "+"
  | sub => "-"
  | shl => "<<"
  | shr => ">>"
  | lt => "<"
  | gt => ">"
  | le => "<="
  | ge => ">="
  | eq => "=="
  | ne => "!="
  | bitAnd => "&"
  | bitXor => "^"
  | bitOr => "|"
  | and => "&&"
  | or => "||"
  | other _ => "?"

end BinaryOp

/-- Assignment operators. -/
inductive AssignOp where
  | set | mul | div | mod | add | sub | shl | shr | bitAnd | bitXor | bitOr
  | other (code : Nat)
  deriving DecidableEq, Repr, Inhabited

namespace AssignOp

/-- The operators in the order of their numbers. -/
def all : List AssignOp := [set, mul, div, mod, add, sub, shl, shr, bitAnd, bitXor, bitOr]

/-- The operator with a number. -/
def ofNat (n : Nat) : AssignOp := all[n]?.getD (other n)

/-- The operator as C spells it. -/
def text : AssignOp → String
  | set => "="
  | mul => "*="
  | div => "/="
  | mod => "%="
  | add => "+="
  | sub => "-="
  | shl => "<<="
  | shr => ">>="
  | bitAnd => "&="
  | bitXor => "^="
  | bitOr => "|="
  | other _ => "?"

end AssignOp

/-- How a member is reached. -/
inductive MemberOp where
  | direct | indirect
  deriving DecidableEq, Repr, Inhabited

/-- The operator as C spells it. -/
def MemberOp.text : MemberOp → String
  | direct => "."
  | indirect => "->"

/-! ## Expressions and statements -/

/-- Constants. -/
inductive Const where
  | int (value : Int64)
  | uint (value : UInt64)
  | float (value : Double)
  | str (value : Bytes)
  deriving DecidableEq, Repr, Inhabited

/-- Expressions. -/
inductive CExpr where
  | ident (name : String)
  | const (value : Const)
  | member (x : CExpr) (op : MemberOp) (field : String)
  | call (fn : CExpr) (args : List CExpr)
  | cast (type : CType) (x : CExpr)
  | binary (op : BinaryOp) (left right : CExpr)
  | unary (op : UnaryOp) (x : CExpr)
  | sizeOf (type : CType)
  | assign (op : AssignOp) (left right : CExpr)
  /-- A type where an expression is called for. -/
  | type (t : CType)
  /-- No expression. -/
  | missing
  deriving Repr, Inhabited

/-- Statements. -/
inductive CStmt where
  | empty
  | continue
  | break
  | ret (value : Option CExpr)
  | block (stmts : List CStmt)
  | cond (test : CExpr) (yes : CStmt) (no : Option CStmt)
  | while (test : CExpr) (body : CStmt)
  | var (name : String) (type : CType)
  | expr (x : CExpr)
  /-- No statement. -/
  | missing
  deriving Repr, Inhabited

/-- A call of a named function. -/
def call (name : String) (args : List CExpr) : CExpr := .call (.ident name) args

/-- The statement `left = right;`. -/
def set (left right : CExpr) : CStmt := .expr (.assign .set left right)

/-! ## Units -/

/-- A typed name: a parameter of a function or a member of a struct. -/
structure CParam where
  name : String
  type : CType
  deriving DecidableEq, Repr, Inhabited

/-- Declarations at file scope. A function without a body is a prototype. -/
inductive Decl where
  | struct (name : String) (members : List CParam)
  | var (name : String) (type : CType) (init : Option CExpr)
  | fn (name : String) (params : List CParam) (ret : CType) (body : Option (List CStmt))
  deriving Repr, Inhabited

/-- A header to include, from the system or from the unit's own directory. -/
structure Include where
  name : String
  system : Bool := false
  deriving DecidableEq, Repr, Inhabited

/-- One source or header file. -/
structure CUnit where
  name : String
  isHeader : Bool := false
  includes : List Include
  decls : List Decl
  deriving Repr, Inhabited

/-- The name of the file that holds the unit. -/
def CUnit.fileName (u : CUnit) : String := u.name ++ (if u.isHeader then ".h" else ".c")

end PineLang.C
