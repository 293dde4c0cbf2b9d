import PineLang.Syntax.Walk

/-!
# Holes in a tree

The places of a tree that no node fills, and its nodes without content. A pass over the tree
either passes over such a hole or cannot go on; which one depends on the pass.
-/
namespace PineLang

/-- A place without a node, by the number it refers to, or a node without content, by its kind
    number. -/
inductive Hole where
  | expr (id : Nat)
  | hollowExpr (kind : Nat)
  | stmt (id : Nat)
  | hollowStmt (kind : Nat)
  | item (id : Nat)
  | hollowItem (kind : Nat)
  deriving DecidableEq, Repr

mutual

/-- The holes of an expression. -/
def Expr.holes : Expr → List Hole
  | .ident _ _ => []
  | .lit _ _ => []
  | .assign _ a b => a.holes ++ b.holes
  | .call _ f args => f.holes ++ exprHoles args
  | .member _ t _ _ => t.holes
  | .unary _ _ x => x.holes
  | .binary _ _ a b => a.holes ++ b.holes
  | .group _ x => x.holes
  | .structLit _ _ _ fs => fieldHoles fs
  | .absent id => [.expr id]
  | .hollow _ k => [.hollowExpr k]

/-- The holes of expressions. -/
def exprHoles : List Expr → List Hole
  | [] => []
  | x :: xs => x.holes ++ exprHoles xs

/-- The holes of one field of a literal. -/
def FieldInit.holes : FieldInit → List Hole
  | .mk _ _ v => v.holes

/-- The holes of the fields of a literal. -/
def fieldHoles : List FieldInit → List Hole
  | [] => []
  | f :: fs => f.holes ++ fieldHoles fs

end

mutual

/-- The holes of a statement. -/
def Stmt.holes : Stmt → List Hole
  | .block _ ss => stmtHoles ss
  | .expr _ x => x.holes
  | .cond _ t yes no => t.holes ++ yes.holes ++ elseHoles no
  | .ret _ v => (v.map Expr.holes).getD []
  | .brk _ => []
  | .bind _ _ _ _ v => v.holes
  | .loop _ b => b.holes
  | .empty _ => []
  | .absent id => [.stmt id]
  | .hollow _ k => [.hollowStmt k]

/-- The holes of a body. -/
def Body.holes : Body → List Hole
  | .block _ ss => stmtHoles ss
  | .stray _ s => s.holes

/-- The holes of an optional branch. -/
def elseHoles : Option Body → List Hole
  | none => []
  | some b => b.holes

/-- The holes of statements. -/
def stmtHoles : List Stmt → List Hole
  | [] => []
  | s :: ss => s.holes ++ stmtHoles ss

end

/-- The holes of an item. -/
def Item.holes : Item → List Hole
  | fn d => d.body.holes
  | struct _ => []
  | absent id => [.item id]
  | hollow _ k => [.hollowItem k]

/-- The holes of a file. -/
def File.holes (f : File) : List Hole := f.items.flatMap Item.holes

end PineLang
