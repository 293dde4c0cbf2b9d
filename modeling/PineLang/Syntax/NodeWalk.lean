import PineLang.Syntax.Arena

/-!
# Walking nodes

The nodes of a builder in pre-order, each with its number and its span, as they are come upon from a file. A number
without a node is passed over; a walk that comes upon a node without the content its kind calls for cannot go on.

A tour is the walk as it is made for a visitor, who is called for each node and may end it.
-/
namespace PineLang

/-- A node, a parameter or a type annotation; annotations have no number. -/
inductive Place where
  | file (id : Nat)
  | item (id : Nat)
  | param (id : Nat)
  | type
  | stmt (id : Nat)
  | expr (id : Nat)
  deriving DecidableEq, Repr

/-- What a walk tells a place apart by. -/
def Place.kind : Place → NodeKind
  | file _ => .file
  | item _ => .item
  | param _ => .param
  | type => .type
  | stmt _ => .stmt
  | expr _ => .expr

/-- One step of a walk over nodes. -/
inductive Encounter where
  | met (place : Place) (span : Span)
  /-- The node just met has no content. -/
  | broken
  deriving DecidableEq, Repr

namespace Encounter

/-- The step without the number. -/
def visit : Encounter → Visit
  | met place span => .node place.kind span
  | broken => .broken

/-- Where the step leads. -/
def place? : Encounter → Option Place
  | met place _ => some place
  | broken => none

end Encounter

namespace Builder

/-- The steps over an expression, made of those that `sub` gives for others. -/
def exprWalkStep (b : Builder) (sub : Nat → List Encounter) (id : Nat) : List Encounter :=
  match b.exprs.find id with
  | .missing => []
  | .hollow s k => .met (.expr id) s :: if exprKindHasParts k.number then [.broken] else []
  | .node s (.ident _) => [.met (.expr id) s]
  | .node s (.lit _) => [.met (.expr id) s]
  | .node s (.assign x y) => .met (.expr id) s :: (sub x ++ sub y)
  | .node s (.call f xs) => .met (.expr id) s :: (sub f ++ xs.flatMap sub)
  | .node s (.member x _ _) => .met (.expr id) s :: sub x
  | .node s (.unary _ x) => .met (.expr id) s :: sub x
  | .node s (.binary _ x y) => .met (.expr id) s :: (sub x ++ sub y)
  | .node s (.group x) => .met (.expr id) s :: sub x
  | .node s (.structLit _ _ fs) => .met (.expr id) s :: fs.flatMap fun f => sub f.value

/-- The steps over an expression. -/
def exprWalk (b : Builder) : Nat → List Encounter :=
  unfolded b.exprWalkStep (fun _ => []) (b.exprs.heads.size + 1)

/-- The steps over a statement, made of those that `sub` gives for others. -/
def stmtWalkStep (b : Builder) (sub : Nat → List Encounter) (id : Nat) : List Encounter :=
  match b.stmts.find id with
  | .missing => []
  | .hollow s k => .met (.stmt id) s :: if stmtKindHasParts k.number then [.broken] else []
  | .node s (.block ss) => .met (.stmt id) s :: ss.flatMap sub
  | .node s (.expr x) => .met (.stmt id) s :: b.exprWalk x
  | .node s (.cond t y n) => .met (.stmt id) s :: (b.exprWalk t ++ sub y ++ sub n)
  | .node s (.ret x) => .met (.stmt id) s :: b.exprWalk x
  | .node s (.bind _ _ ty x) => .met (.stmt id) s :: .met .type ty.span :: b.exprWalk x
  | .node s (.loop y) => .met (.stmt id) s :: sub y

/-- The steps over a statement. -/
def stmtWalk (b : Builder) : Nat → List Encounter :=
  unfolded b.stmtWalkStep (fun _ => []) (b.stmts.heads.size + 1)

/-- The steps over parameters or fields, which are numbered from `start`. -/
def paramWalk (start : Nat) : List ParamNode → List Encounter
  | [] => []
  | p :: ps => .met (.param start) p.span :: .met .type p.type.span :: paramWalk (start + 1) ps

/-- The steps over an item. A walk cannot go on where parameters are not there. -/
def itemWalk (b : Builder) (id : Nat) : List Encounter :=
  match b.items.find id with
  | .missing => []
  | .hollow s k => .met (.item id) s :: if k.number ≤ 1 then [.broken] else []
  | .node s (.fn d) =>
    .met (.item id) s :: match b.paramRange? d.params with
      | none => [.broken]
      | some ps => paramWalk d.params.start ps ++ .met .type d.ret.span :: b.stmtWalk d.body
  | .node s (.struct d) =>
    .met (.item id) s :: match b.paramRange? d.fields with
      | none => [.broken]
      | some fs => paramWalk d.fields.start fs

/-- The steps over a file. -/
def walk (b : Builder) (id : Nat) : List Encounter :=
  match b.files.get? id with
  | none => []
  | some f => .met (.file id) f.span :: f.items.flatMap b.itemWalk

end Builder

/-! ## Visitors -/

/-- What a visitor is told of a node. -/
structure Sighting where
  kind : NodeKind
  span : Span
  deriving DecidableEq, Repr

/-- A visitor: whether to go on after a call, which may depend on the calls before it. -/
abbrev Visitor := List Sighting → Sighting → Bool

/-- Why a tour fails. -/
inductive TourFault where
  /-- The node just met has no content. -/
  | broken
  /-- The nodes refer to one another in a circle. -/
  | bottomless
  deriving DecidableEq, Repr

/-- A tour, on top of the calls made so far. -/
abbrev Tour := ExceptT TourFault (StateM (List Sighting))

/-- Calls the visitor. -/
def Tour.emit (visit : Visitor) (kind : NodeKind) (span : Span) : Tour Bool := do
  let earlier ← get
  set (earlier ++ [Sighting.mk kind span])
  return visit earlier ⟨kind, span⟩

namespace Builder

open Tour

variable (b : Builder) (visit : Visitor)

/-- A tour of an expression, made of those that `sub` gives for others. -/
def exprTourStep (sub : Nat → Tour Bool) (id : Nat) : Tour Bool :=
  match b.exprs.find id with
  | .missing => pure true
  | .hollow s k => emit visit .expr s <&&> if exprKindHasParts k.number then throw .broken else pure true
  | .node s (.ident _) => emit visit .expr s
  | .node s (.lit _) => emit visit .expr s
  | .node s (.assign x y) => emit visit .expr s <&&> (sub x <&&> sub y)
  | .node s (.call f xs) => emit visit .expr s <&&> (sub f <&&> xs.allM sub)
  | .node s (.member x _ _) => emit visit .expr s <&&> sub x
  | .node s (.unary _ x) => emit visit .expr s <&&> sub x
  | .node s (.binary _ x y) => emit visit .expr s <&&> (sub x <&&> sub y)
  | .node s (.group x) => emit visit .expr s <&&> sub x
  | .node s (.structLit _ _ fs) => emit visit .expr s <&&> fs.allM fun f => sub f.value

/-- A tour of an expression. -/
def exprTour : Nat → Tour Bool :=
  unfolded (b.exprTourStep visit) (fun _ => throw .bottomless) (b.exprs.heads.size + 1)

/-- A tour of a statement, made of those that `sub` gives for others. -/
def stmtTourStep (sub : Nat → Tour Bool) (id : Nat) : Tour Bool :=
  match b.stmts.find id with
  | .missing => pure true
  | .hollow s k => emit visit .stmt s <&&> if stmtKindHasParts k.number then throw .broken else pure true
  | .node s (.block ss) => emit visit .stmt s <&&> ss.allM sub
  | .node s (.expr x) => emit visit .stmt s <&&> b.exprTour visit x
  | .node s (.cond t y n) => emit visit .stmt s <&&> (b.exprTour visit t <&&> (sub y <&&> sub n))
  | .node s (.ret x) => emit visit .stmt s <&&> b.exprTour visit x
  | .node s (.bind _ _ ty x) => emit visit .stmt s <&&> (emit visit .type ty.span <&&> b.exprTour visit x)
  | .node s (.loop y) => emit visit .stmt s <&&> sub y

/-- A tour of a statement. -/
def stmtTour : Nat → Tour Bool :=
  unfolded (b.stmtTourStep visit) (fun _ => throw .bottomless) (b.stmts.heads.size + 1)

/-- A tour of parameters or fields. -/
def paramTour (ps : List ParamNode) : Tour Bool :=
  ps.allM fun p => emit visit .param p.span <&&> emit visit .type p.type.span

/-- A tour of an item. -/
def itemTour (id : Nat) : Tour Bool :=
  match b.items.find id with
  | .missing => pure true
  | .hollow s k => emit visit .item s <&&> if k.number ≤ 1 then throw .broken else pure true
  | .node s (.fn d) =>
    emit visit .item s <&&> match b.paramRange? d.params with
      | none => throw .broken
      | some ps => paramTour visit ps <&&> (emit visit .type d.ret.span <&&> b.stmtTour visit d.body)
  | .node s (.struct d) =>
    emit visit .item s <&&> match b.paramRange? d.fields with
      | none => throw .broken
      | some fs => paramTour visit fs

/-- A tour of a file. -/
def tour (id : Nat) : Tour Bool :=
  match b.files.get? id with
  | none => pure true
  | some f => emit visit .file f.span <&&> f.items.allM (b.itemTour visit)

end Builder
end PineLang
