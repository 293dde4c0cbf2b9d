import PineLang.Syntax.Tree

/-!
# Walking a tree

The nodes of a tree in pre-order, each with its kind and its span. A walk that comes upon a node
without the content its kind calls for cannot go on, which shows as a step of its own, so that a
visitor that stops before it is not affected.
-/
namespace PineLang

/-- What a walk tells nodes apart by. -/
inductive NodeKind where
  | file | item | param | type | stmt | expr
  deriving DecidableEq, Repr

/-- The name of a kind. -/
def NodeKind.name : NodeKind → String
  | file => "file"
  | item => "item"
  | param => "param"
  | type => "type"
  | stmt => "stmt"
  | expr => "expr"

/-- The kinds in the order of their numbers. -/
def NodeKind.all : List NodeKind := [file, item, param, type, stmt, expr]

/-- One step of a walk. -/
inductive Visit where
  | node (kind : NodeKind) (span : Span)
  /-- The node just visited has no content. -/
  | broken
  deriving DecidableEq, Repr

/-- The kinds of expression that have parts to visit. -/
def exprKindHasParts (kind : Nat) : Bool := 2 ≤ kind && kind ≤ 8

/-- The kinds of statement that have content. -/
def stmtKindHasParts (kind : Nat) : Bool := kind ≤ 6 && kind != 4

mutual

/-- The steps of a walk over an expression. -/
def Expr.walk : Expr → List Visit
  | .ident s _ => [.node .expr s]
  | .lit s _ => [.node .expr s]
  | .assign s a b => .node .expr s :: (a.walk ++ b.walk)
  | .call s f args => .node .expr s :: (f.walk ++ walkExprs args)
  | .member s t _ _ => .node .expr s :: t.walk
  | .unary s _ x => .node .expr s :: x.walk
  | .binary s _ a b => .node .expr s :: (a.walk ++ b.walk)
  | .group s x => .node .expr s :: x.walk
  | .structLit s _ _ fs => .node .expr s :: walkFields fs
  | .absent _ => []
  | .hollow s k => .node .expr s :: if exprKindHasParts k then [.broken] else []

/-- The steps of a walk over expressions. -/
def walkExprs : List Expr → List Visit
  | [] => []
  | x :: xs => x.walk ++ walkExprs xs

/-- The steps of a walk over one field of a literal. -/
def FieldInit.walk : FieldInit → List Visit
  | .mk _ _ v => v.walk

/-- The steps of a walk over the fields of a literal. -/
def walkFields : List FieldInit → List Visit
  | [] => []
  | f :: fs => f.walk ++ walkFields fs

end

/-- The steps of a walk over an optional expression. -/
def walkOption : Option Expr → List Visit
  | none => []
  | some x => x.walk

mutual

/-- The steps of a walk over a statement. -/
def Stmt.walk : Stmt → List Visit
  | .block s ss => .node .stmt s :: walkStmts ss
  | .expr s x => .node .stmt s :: x.walk
  | .cond s t yes no => .node .stmt s :: (t.walk ++ yes.walk ++ walkElse no)
  | .ret s v => .node .stmt s :: walkOption v
  | .brk s => [.node .stmt s]
  | .bind s _ _ ty v => .node .stmt s :: .node .type ty.span :: v.walk
  | .loop s b => .node .stmt s :: b.walk
  | .empty s => [.node .stmt s]
  | .absent _ => []
  | .hollow s k => .node .stmt s :: if stmtKindHasParts k then [.broken] else []

/-- The steps of a walk over a body. -/
def Body.walk : Body → List Visit
  | .block s ss => .node .stmt s :: walkStmts ss
  | .stray _ s => s.walk

/-- The steps of a walk over an optional branch. -/
def walkElse : Option Body → List Visit
  | none => []
  | some b => b.walk

/-- The steps of a walk over statements. -/
def walkStmts : List Stmt → List Visit
  | [] => []
  | s :: ss => s.walk ++ walkStmts ss

end

/-- The steps of a walk over a parameter or field. -/
def Param.walk (p : Param) : List Visit := [.node .param p.span, .node .type p.type.span]

/-- The steps of a walk over an item. -/
def Item.walk : Item → List Visit
  | fn d =>
    .node .item d.span :: d.params.flatMap Param.walk ++ .node .type d.ret.span :: d.body.walk
  | struct d => .node .item d.span :: d.fields.flatMap Param.walk
  | absent _ => []
  | hollow s k => .node .item s :: if k ≤ 1 then [.broken] else []

/-- The steps of a walk over a file, in pre-order. -/
def File.walk (f : File) : List Visit := .node .file f.span :: f.items.flatMap Item.walk

/-- The visits up to and including the first that satisfies `stop`; none if the walk breaks
    before. -/
def visitUntil (stop : NodeKind → Span → Bool) : List Visit → Option (List (NodeKind × Span))
  | [] => some []
  | .broken :: _ => none
  | .node k s :: rest =>
    if stop k s then some [(k, s)] else (visitUntil stop rest).map ((k, s) :: ·)

/-- All visits of a walk that does not break. -/
def visits (steps : List Visit) : Option (List (NodeKind × Span)) :=
  visitUntil (fun _ _ => false) steps

/-- How many visits of each kind there are, for the kinds that occur. -/
def countKinds (vs : List (NodeKind × Span)) : List (NodeKind × Nat) :=
  (NodeKind.all.map fun k => (k, vs.countP (·.1 == k))).filter (·.2 > 0)

/-! ## Invariants of spans -/

/-- What is wrong with the span of a node in a file of this number and length. -/
def spanFault? (file : Span) (id length : Nat) (kind : NodeKind) (s : Span) : Option String :=
  if s.start > s.stop then some ("reversed " ++ kind.name ++ " span: " ++ s.text)
  else if s.file != id then
    some (kind.name ++ " span file mismatch: got=" ++ toString s.file ++ " want=" ++ toString id)
  else if s.stop > length then
    some (kind.name ++ " span end beyond content: " ++ toString s.stop ++ " > " ++ toString length)
  else if kind == .item && !file.contains s then
    some ("item span " ++ s.text ++ " is outside file span " ++ file.text)
  else none

/-- The first fault of a walk over the file; none at all if the walk breaks before a fault. -/
def File.spanFault (f : File) (id length : Nat) : Option (Option String) :=
  let faulty := fun k s => (spanFault? f.span id length k s).isSome
  (visitUntil faulty f.walk).map fun vs =>
    match vs.getLast? with
    | some (k, s) => spanFault? f.span id length k s
    | none => none

end PineLang
