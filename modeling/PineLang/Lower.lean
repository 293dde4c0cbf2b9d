import PineLang.C.Split
import PineLang.Syntax.Tree

/-!
# From a file to a C unit

Functions become functions, structs become structs that are handled by pointer, and every struct
gets a constructor that allocates it. A binding becomes a declaration and an assignment; where the
value is a struct literal, its fields are evaluated into temporaries in a block of their own, in
the order of the literal, and handed to the constructor in the order of the declaration.

Lowering relies on what parsing and checking ensure. Where a tree breaks that, it gives a fault
and no unit.
-/
namespace PineLang

/-- Why a tree cannot be lowered. -/
inductive LowerFault where
  | structTwice (name : String)
  | itemMissing (id : Nat)
  | itemKind (kind : Nat)
  | typeKind (kind : Nat)
  | notBlock (id : Nat)
  | stmtMissing (id : Nat)
  | stmtKind
  | exprMissing (id : Nat)
  | exprKind (kind : Nat)
  | literalKind (kind : Nat)
  | binaryOp (code : Nat)
  | undeclaredStruct (name : String)
  | literalOutside (name : String)
  | noField (struct field : String)
  | fieldTwice (field struct : String)
  | fieldUnset (field struct : String)
  | fileMissing (id : Nat)
  /-- A node has no content at all. -/
  | hollow
  deriving DecidableEq, Repr

/-- What a message says about a fault. -/
def LowerFault.message : LowerFault → String
  | structTwice n => "malformed AST: struct " ++ n ++ " declared twice"
  | itemMissing id => "malformed AST: item " ++ toString id ++ " not found"
  | itemKind k => "malformed AST: unknown item kind " ++ toString k
  | typeKind k => "malformed AST: unknown type kind " ++ toString k
  | notBlock id => "malformed AST: statement " ++ toString id ++ " is not a block"
  | stmtMissing id => "malformed AST: statement " ++ toString id ++ " not found"
  | stmtKind => "malformed AST: unknown statement kind unknown"
  | exprMissing id => "malformed AST: expression " ++ toString id ++ " not found"
  | exprKind k => "malformed AST: unknown expression kind " ++ toString k
  | literalKind k => "malformed AST: unknown literal kind " ++ toString k
  | binaryOp k => "malformed AST: unknown binary operator " ++ toString k
  | undeclaredStruct n => "malformed AST: struct literal of undeclared struct " ++ n
  | literalOutside n => "malformed AST: struct literal " ++ n ++ " outside of a let initializer"
  | noField s f => "malformed AST: struct " ++ s ++ " has no field " ++ f
  | fieldTwice f s => "malformed AST: field " ++ f ++ " of " ++ s ++ " initialized twice"
  | fieldUnset f s => "malformed AST: field " ++ f ++ " of " ++ s ++ " is not initialized"
  | fileMissing id => "malformed AST: file " ++ toString id ++ " not found"
  | hollow => ""

namespace Lower

open C (CType CExpr CStmt CParam Decl CUnit)

/-- The allocator of the collector. -/
def allocator : String := "gc_malloc"

/-- The name of a struct's constructor. -/
def constructorName (struct : String) : String := "_" ++ struct ++ "__internal__new_gc"

/-- The headers that every unit starts with. -/
def includes : List C.Include := [⟨"stdint.h", true⟩, ⟨"pine_gc.h", false⟩, ⟨"pine_io.h", false⟩]

/-! ## Types -/

/-- The C type of a type. Structs are handled by pointer. -/
def ty : Ty → Except LowerFault CType
  | .unit => .ok .void
  | .bool => .ok .u8
  | .i8 => .ok .i8
  | .i32 => .ok .i32
  | .i64 => .ok .i64
  | .u8 => .ok .u8
  | .u32 => .ok .u32
  | .u64 => .ok .u64
  | .f32 => .ok .f32
  | .f64 => .ok .f64
  | .str => .ok .str
  | .struct n => .ok (.ptr (.struct n))
  | .other k => .error (.typeKind k)

/-- The C form of a parameter or field. -/
def param (p : Param) : Except LowerFault CParam := do
  return ⟨p.name, ← ty p.type.ty⟩

/-- A struct with its members. -/
structure Layout where
  name : String
  members : List CParam
  deriving DecidableEq, Repr

/-- The structs of a unit, in the order of their declarations. -/
abbrev Layouts := List Layout

/-- The struct with a name. -/
def Layouts.find (ls : Layouts) (name : String) : Option Layout :=
  List.find? (fun l => l.name == name) ls

/-- The type of a member; of several with one name, the last. -/
def Layout.memberType? (l : Layout) (field : String) : Option CType :=
  (l.members.reverse.find? (·.name == field)).map (·.type)

/-- Collects the structs of the items, so that a struct may be used before its declaration. -/
def layouts (known : Layouts) : List Item → Except LowerFault Layouts
  | [] => .ok known
  | .struct d :: rest => do
    let members ← d.fields.mapM param
    if (known.find d.name).isSome then throw (.structTwice d.name)
    layouts (known ++ [⟨d.name, members⟩]) rest
  | .hollow _ 1 :: _ => .error .hollow
  | _ :: rest => layouts known rest

/-! ## Expressions -/

/-- The C form of a binary operator. -/
def binaryOp : BinaryOp → Except LowerFault C.BinaryOp
  | .add => .ok .add
  | .sub => .ok .sub
  | .mul => .ok .mul
  | .div => .ok .div
  | .mod => .ok .mod
  | .lt => .ok .lt
  | .le => .ok .le
  | .gt => .ok .gt
  | .ge => .ok .ge
  | .eq => .ok .eq
  | .ne => .ok .ne
  | .and => .ok .and
  | .or => .ok .or
  | .other k => .error (.binaryOp k)

/-- The C form of a prefix operator. -/
def unaryOp : UnaryOp → C.UnaryOp
  | .not => .not
  | _ => .minus

/-- The C form of a literal. An integer beyond the signed range is written as unsigned. -/
def literal : Literal → Except LowerFault CExpr
  | .bool b => .ok (.const (.int (if b then 1 else 0)))
  | .nil => .ok (.cast (.ptr .void) (.const (.int 0)))
  | .int v _ => .ok (.const (if v.toNat < 0x8000000000000000 then .int v.toInt64 else .uint v))
  | .float v _ => .ok (.const (.float v))
  | .string t => .ok (.const (.str (utf8 t)))
  | .other k _ => .error (.literalKind k)

mutual

/-- The C form of an expression. A group adds nothing: the printer sets parentheses itself. -/
def expr : Expr → Except LowerFault CExpr
  | .ident _ n => .ok (.ident n)
  | .lit _ v => literal v
  | .assign _ a b => do
    let left ← expr a
    let right ← expr b
    return .assign .set left right
  | .call _ f args => do
    let cargs ← exprs args
    let callee ← expr f
    return .call callee cargs
  | .member _ t f _ => do
    let target ← expr t
    return .member target .indirect f
  | .unary _ op x => do
    let operand ← expr x
    return .unary (unaryOp op) operand
  | .binary _ op a b => do
    let cop ← binaryOp op
    let left ← expr a
    let right ← expr b
    return .binary cop left right
  | .group _ x => expr x
  | .structLit _ n _ _ => .error (.literalOutside n)
  | .absent id => .error (.exprMissing id)
  | .hollow _ k => .error (if k ≤ 8 then .hollow else .exprKind k)

/-- The C forms of expressions. -/
def exprs : List Expr → Except LowerFault (List CExpr)
  | [] => .ok []
  | x :: rest => do
    let y ← expr x
    let ys ← exprs rest
    return y :: ys

end

/-! ## Statements -/

/-- The temporaries of a struct literal, in its order: each is declared and assigned. `done` holds
    the fields that have their temporary already. -/
def temporaries (layout : Layout) (done : List String) :
    List FieldInit → Except LowerFault (List CStmt × List String)
  | [] => .ok ([], done)
  | .mk f _ v :: rest => do
    match layout.memberType? f with
    | none => throw (.noField layout.name f)
    | some t =>
      if done.contains f then throw (.fieldTwice f layout.name)
      let value ← expr v
      let (more, all) ← temporaries layout (done ++ [f]) rest
      return (.var f t :: C.set (.ident f) value :: more, all)

/-- The arguments of the constructor: a temporary for every member. -/
def constructorArgs (layout : Layout) (done : List String) : Except LowerFault (List CExpr) :=
  layout.members.mapM fun m =>
    if done.contains m.name then .ok (.ident m.name) else .error (.fieldUnset m.name layout.name)

/-- A binding whose value is a struct literal. -/
def structInit (ls : Layouts) (target struct : String) (fields : List FieldInit) :
    Except LowerFault (List CStmt) :=
  match ls.find struct with
  | none => .error (.undeclaredStruct struct)
  | some layout => do
    let (temps, done) ← temporaries layout [] fields
    let args ← constructorArgs layout done
    let build := C.set (.ident target) (C.call (constructorName struct) args)
    return [.var target (.ptr (.struct struct)), .block (temps ++ [build])]

/-- A binding. -/
def binding (ls : Layouts) (name : String) (type : Ty) : Expr → Except LowerFault (List CStmt)
  | .structLit _ s _ fields => structInit ls name s fields
  | .hollow _ 8 => .error .hollow
  | value => do
    let t ← ty type
    let v ← expr value
    return [.var name t, C.set (.ident name) v]

mutual

/-- The C statements of a statement. -/
def stmt (ls : Layouts) : Stmt → Except LowerFault (List CStmt)
  | .block _ ss => do
    let body ← stmts ls ss
    return [.block body]
  | .expr _ x => do
    let y ← expr x
    return [.expr y]
  | .cond _ t yes no => do
    let test ← expr t
    let first ← body ls yes
    let second ← otherwise ls no
    return [.cond test (.block first) second]
  | .ret _ none => .ok [.ret none]
  | .ret _ (some x) => do
    let y ← expr x
    return [.ret (some y)]
  | .brk _ => .ok [.break]
  | .empty _ => .ok [.empty]
  | .loop _ b => do
    let inner ← body ls b
    return [.while (.const (.int 1)) (.block inner)]
  | .bind _ n _ t v => binding ls n t.ty v
  | .absent id => .error (.stmtMissing id)
  | .hollow _ k => .error (if k ≤ 7 then .hollow else .stmtKind)

/-- The statements of a body. -/
def body (ls : Layouts) : Body → Except LowerFault (List CStmt)
  | .block _ ss => stmts ls ss
  | .stray _ (.hollow _ 0) => .error .hollow
  | .stray id _ => .error (.notBlock id)

/-- The `else` branch. -/
def otherwise (ls : Layouts) : Option Body → Except LowerFault (Option CStmt)
  | none => .ok none
  | some b => do
    let inner ← body ls b
    return some (.block inner)

/-- The C statements of statements. -/
def stmts (ls : Layouts) : List Stmt → Except LowerFault (List CStmt)
  | [] => .ok []
  | s :: rest => do
    let first ← stmt ls s
    let more ← stmts ls rest
    return first ++ more

end

/-! ## Constructors -/

/-- The first name of `candidate 0`, `candidate 1`, … that is not taken. Among one more candidate
    than there are taken names, one is free. -/
def firstFree (taken : List String) (candidate : Nat → String) : String :=
  match (List.range (taken.length + 1)).find? fun i => !taken.contains (candidate i) with
  | some i => candidate i
  | none => candidate 0

/-- `name`, followed by one more underscore than `n`. -/
def underscored (name : String) (n : Nat) : String := name ++ "".pushn '_' (n + 1)

/-- The constructor's parameters, named after the members. A member that would hide a name the
    constructor itself uses gets underscores. -/
def constructorParams (taken : List String) : List CParam → List CParam
  | [] => []
  | m :: rest =>
    if m.name == C.collector || m.name == allocator then
      let name := firstFree taken (underscored m.name)
      ⟨name, m.type⟩ :: constructorParams (name :: taken) rest
    else m :: constructorParams taken rest

/-- The name of the constructor's local: `n`, or `n` with a number. -/
def localName (taken : List String) : String :=
  firstFree taken fun i => if i == 0 then "n" else "n" ++ toString i

/-- The constructor of a struct. -/
def constructor (l : Layout) : Decl :=
  let pointer := CType.ptr (.struct l.name)
  let members := l.members.map (·.name)
  let params := constructorParams (C.collector :: allocator :: members) l.members
  let object := localName (members ++ params.map (·.name))
  let allocation := CExpr.cast pointer (C.call allocator
    [.unary .address (.ident C.collector), .sizeOf (.struct l.name)])
  let stores := (l.members.zip params).map fun (m, p) =>
    C.set (.member (.ident object) .indirect m.name) (.ident p.name)
  .fn (constructorName l.name) params pointer (some <|
    .var object pointer :: C.set (.ident object) allocation :: stores ++
      [CStmt.ret (some (.ident object))])

/-! ## Items -/

/-- The C name of a function. -/
def fnName (name : String) : String := if name == "main" then C.programEntry else name

/-- The declaration of an item. -/
@[grind =] def item (ls : Layouts) : Item → Except LowerFault Decl
  | .fn d => do
    let params ← d.params.mapM param
    let ret ← ty d.ret.ty
    let inner ← body ls d.body
    return .fn (fnName d.name) params ret (some inner)
  | .struct d => .ok (.struct d.name ((ls.find d.name).map (·.members) |>.getD []))
  | .absent id => .error (.itemMissing id)
  | .hollow _ k => .error (if k ≤ 1 then .hollow else .itemKind k)

end Lower

/-- The C unit of a file: a declaration for every item, then a constructor for every struct. -/
def File.lower (f : File) (name : String) : Except LowerFault C.CUnit := do
  let ls ← Lower.layouts [] f.items
  let decls ← f.items.mapM (Lower.item ls)
  return {
    name
    includes := Lower.includes
    decls := decls ++ ls.map Lower.constructor }

end PineLang
