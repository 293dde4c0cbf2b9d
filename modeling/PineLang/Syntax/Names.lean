import PineLang.Syntax.Tree

/-!
# The names in a tree

Every name that a tree mentions, in the order of the source.
-/
namespace PineLang

/-- The name a type mentions. -/
def Ty.names : Ty → List String
  | struct n => [n]
  | _ => []

/-- The names of a parameter or field. -/
def Param.names (p : Param) : List String := p.name :: p.type.ty.names

mutual

/-- The names an expression mentions. -/
def Expr.names : Expr → List String
  | .ident _ n => [n]
  | .lit _ _ => []
  | .assign _ a b => a.names ++ b.names
  | .call _ f args => f.names ++ exprNames args
  | .member _ t f _ => t.names ++ [f]
  | .unary _ _ x => x.names
  | .binary _ _ a b => a.names ++ b.names
  | .group _ x => x.names
  | .structLit _ n _ fs => n :: fieldNames fs
  | .absent _ => []
  | .hollow _ _ => []

/-- The names a list of expressions mentions. -/
def exprNames : List Expr → List String
  | [] => []
  | x :: xs => x.names ++ exprNames xs

/-- The names one field of a literal mentions. -/
def FieldInit.names : FieldInit → List String
  | .mk n _ v => n :: v.names

/-- The names the fields of a literal mention. -/
def fieldNames : List FieldInit → List String
  | [] => []
  | f :: fs => f.names ++ fieldNames fs

end

mutual

/-- The names a statement mentions. -/
def Stmt.names : Stmt → List String
  | .block _ ss => stmtNames ss
  | .expr _ x => x.names
  | .cond _ t yes no => t.names ++ yes.names ++ elseNames no
  | .ret _ v => (v.map Expr.names).getD []
  | .brk _ => []
  | .bind _ n _ ty v => n :: ty.ty.names ++ v.names
  | .loop _ b => b.names
  | .empty _ => []
  | .absent _ => []
  | .hollow _ _ => []

/-- The names a body mentions. -/
def Body.names : Body → List String
  | .block _ ss => stmtNames ss
  | .stray _ s => s.names

/-- The names an optional branch mentions. -/
def elseNames : Option Body → List String
  | none => []
  | some b => b.names

/-- The names a list of statements mentions. -/
def stmtNames : List Stmt → List String
  | [] => []
  | s :: ss => s.names ++ stmtNames ss

end

/-- The names an item mentions. -/
def Item.names : Item → List String
  | fn d => d.name :: d.params.flatMap Param.names ++ d.ret.ty.names ++ d.body.names
  | struct d => d.name :: d.fields.flatMap Param.names
  | absent _ => []
  | hollow _ _ => []

/-- The names a file mentions. -/
def File.names (f : File) : List String := f.items.flatMap Item.names

end PineLang
