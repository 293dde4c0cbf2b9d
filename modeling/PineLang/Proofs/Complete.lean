import PineLang.Proofs.ParserSound

/-!
Complete trees: every place is filled by a node, every node has its content, every kind number names
something, and blocks stand where blocks are called for. The grammar makes no others, so every
parsed file is complete (`complete_of_parse`).
-/
namespace PineLang

/-! ## Completeness -/

/-- A type that the language has. -/
def Ty.Known : Ty → Prop
  | .other _ => False
  | _ => True

/-- A binary operator that the language has. -/
def BinaryOp.Known : BinaryOp → Prop
  | .other _ => False
  | _ => True

/-- A literal that the language has. -/
def Literal.Known : Literal → Prop
  | .other _ _ => False
  | _ => True

mutual

/-- An expression without holes. -/
def Expr.Complete : Expr → Prop
  | .ident _ _ => True
  | .lit _ v => v.Known
  | .assign _ a b => a.Complete ∧ b.Complete
  | .call _ f args => f.Complete ∧ exprsComplete args
  | .member _ t _ _ => t.Complete
  | .unary _ _ x => x.Complete
  | .binary _ op a b => op.Known ∧ a.Complete ∧ b.Complete
  | .group _ x => x.Complete
  | .structLit _ _ _ fs => fieldsComplete fs
  | .absent _ => False
  | .hollow _ _ => False

/-- Expressions without holes. -/
def exprsComplete : List Expr → Prop
  | [] => True
  | x :: xs => x.Complete ∧ exprsComplete xs

/-- A field of a literal whose value has no holes. -/
def FieldInit.Complete : FieldInit → Prop
  | .mk _ _ v => v.Complete

/-- Fields of a literal whose values have no holes. -/
def fieldsComplete : List FieldInit → Prop
  | [] => True
  | f :: fs => f.Complete ∧ fieldsComplete fs

end

mutual

/-- A statement without holes. -/
def Stmt.Complete : Stmt → Prop
  | .block _ ss => stmtsComplete ss
  | .expr _ x => x.Complete
  | .cond _ t yes no => t.Complete ∧ yes.Complete ∧ elseComplete no
  | .ret _ none => True
  | .ret _ (some x) => x.Complete
  | .brk _ => True
  | .bind _ _ _ t v => t.ty.Known ∧ v.Complete
  | .loop _ b => b.Complete
  | .empty _ => True
  | .absent _ => False
  | .hollow _ _ => False

/-- A block without holes. -/
def Body.Complete : Body → Prop
  | .block _ ss => stmtsComplete ss
  | .stray _ _ => False

/-- An optional branch without holes. -/
def elseComplete : Option Body → Prop
  | none => True
  | some b => b.Complete

/-- Statements without holes. -/
def stmtsComplete : List Stmt → Prop
  | [] => True
  | s :: ss => s.Complete ∧ stmtsComplete ss

end

/-- A declaration without holes. -/
def Item.Complete : Item → Prop
  | .fn d => (∀ p ∈ d.params, p.type.ty.Known) ∧ d.ret.ty.Known ∧ d.body.Complete
  | .struct d => ∀ p ∈ d.fields, p.type.ty.Known
  | .absent _ => False
  | .hollow _ _ => False

/-- A file without holes. -/
def File.Complete (f : File) : Prop := ∀ i ∈ f.items, i.Complete

/-! ## The grammar makes complete trees -/

namespace Grammar

theorem annotation_known {l : Lexeme} {ref : TypeRef} (isType : annotation? l = some ref) : ref.ty.Known := by
  cases prim : l.kind.primitive? with
  | some ty =>
    have same : ref = ⟨ty, l.span⟩ := by simpa [annotation?, prim] using isType.symm
    rw [same]
    generalize l.kind = k at prim
    cases k <;> cases prim <;> trivial
  | none =>
    simp only [annotation?, prim] at isType
    generalize l.kind = k at isType
    split at isType <;> cases isType <;> trivial

theorem joiner_known {k : Kind} {op : BinaryOp} (isOp : k.joiner? = some (.op op)) : op.Known := by
  cases k <;> cases isOp <;> trivial

theorem leaf_complete {l : Lexeme} {e : Expr} (isLeaf : leaf? l = some e) : e.Complete := by
  unfold leaf? at isLeaf
  split at isLeaf <;> cases isLeaf <;> trivial

theorem Field.known {ts : List Lexeme} {p : Param} : Field ts p → p.type.ty.Known
  | .mk _ _ isType => annotation_known isType

mutual

theorem Expression.complete {least : Nat} {ts : List Lexeme} {e : Expr} : Expression least ts e → e.Complete
  | .operand inner => inner.complete
  | .binary lhs isOp _ rhs => ⟨joiner_known isOp, lhs.complete, rhs.complete⟩
  | .assign lhs _ _ _ rhs => ⟨lhs.complete, rhs.complete⟩

theorem Prefixed.complete {ts : List Lexeme} {e : Expr} : Prefixed ts e → e.Complete
  | .plain inner => inner.complete
  | .sign _ inner => inner.complete

theorem Postfixed.complete {ts : List Lexeme} {e : Expr} : Postfixed ts e → e.Complete
  | .plain inner => inner.complete
  | .call callee _ inner _ => ⟨callee.complete, inner.complete⟩
  | .member target _ _ => target.complete

theorem Primary.complete {ts : List Lexeme} {e : Expr} : Primary ts e → e.Complete
  | .leaf isLeaf => leaf_complete isLeaf
  | .group _ inner _ => inner.complete
  | .literal _ _ inner _ => inner.complete

theorem Arguments.complete {ts : List Lexeme} {es : List Expr} : Arguments ts es → exprsComplete es
  | .none => trivial
  | .last arg => ⟨arg.complete, trivial⟩
  | .more arg _ rest => ⟨arg.complete, rest.complete⟩

theorem Inits.complete {ts : List Lexeme} {fs : List FieldInit} : Inits ts fs → fieldsComplete fs
  | .none => trivial
  | .last _ _ value => ⟨value.complete, trivial⟩
  | .more _ _ value _ rest => ⟨value.complete, rest.complete⟩

end

mutual

theorem Statement.complete {nearest closed opened : Bool} {ts : List Lexeme} {s : Stmt} :
    Statement nearest ts s closed opened → s.Complete
  | .only _ cond _ first => ⟨cond.complete, first.complete, trivial⟩
  | .both _ cond _ first _ _ _ second => ⟨cond.complete, first.complete, second.complete⟩
  | .chain _ cond _ first _ _ second => ⟨cond.complete, first.complete, second.complete, trivial⟩
  | .bare _ => trivial
  | .value _ inner => inner.complete
  | .leave _ => trivial
  | .loop _ _ inner => inner.complete
  | .bind _ _ _ isType _ inner => ⟨annotation_known isType, inner.complete⟩
  | .empty _ => trivial
  | .expr inner => inner.complete

theorem Block.complete {nearest closed opened : Bool} {ts : List Lexeme} {b : Body} :
    Block nearest ts b closed opened → b.Complete
  | .line inner => ⟨inner.complete, trivial⟩
  | .indented _ _ inner => inner.complete

theorem Lines.complete {nearest : Bool} {ts : List Lexeme} {ss : List Stmt} : Lines nearest ts ss → stmtsComplete ss
  | .last inner _ _ => ⟨inner.complete, trivial⟩
  | .more inner _ rest => ⟨inner.complete, rest.complete⟩

end

theorem Params.known {ts : List Lexeme} {ps : List Param} (derived : Params ts ps) : ∀ p ∈ ps, p.type.ty.Known := by
  induction derived with
  | last field => simpa using field.known
  | more field _ _ ih => simpa using ⟨field.known, ih⟩

theorem ParamList.known {ts : List Lexeme} {ps : List Param} (derived : ParamList ts ps) :
    ∀ p ∈ ps, p.type.ty.Known := by
  cases derived with
  | none => simp
  | some params => exact params.known

theorem FieldLines.known {ts : List Lexeme} {ps : List Param} (derived : FieldLines ts ps) :
    ∀ p ∈ ps, p.type.ty.Known := by
  induction derived with
  | last field => simpa using field.known
  | more field _ _ ih => simpa using ⟨field.known, ih⟩

theorem BracedFields.known {ts : List Lexeme} {ps : List Param} (derived : BracedFields ts ps) :
    ∀ p ∈ ps, p.type.ty.Known := by
  induction derived with
  | none => simp
  | last field => simpa using field.known
  | more field _ _ ih => simpa using ⟨field.known, ih⟩

theorem Declaration.complete {nearest closed : Bool} {ts : List Lexeme} {i : Item} :
    Declaration nearest ts i closed → i.Complete
  | .fn _ _ _ fields _ _ isType _ inner => ⟨fields.known, annotation_known isType, inner.complete⟩
  | .indented _ _ _ _ _ fields => fields.known
  | .braced _ _ _ fields _ => fields.known

theorem Declarations.complete {nearest : Bool} {ts : List Lexeme} {is : List Item}
    (derived : Declarations nearest ts is) : ∀ i ∈ is, i.Complete := by
  induction derived with
  | none => simp
  | skip _ _ ih => exact ih
  | more inner _ _ ih => simpa using ⟨inner.complete, ih⟩

end Grammar

/-- Parsing makes no holes. -/
theorem complete_of_parse {ls : List Lexeme} {cancelled : Bool} {f : File} (run : parse ls cancelled = .ok f) :
    f.Complete := by
  unfold parse at run
  split at run
  · cases run
  · next read =>
    obtain ⟨_, ts, _, derived⟩ := Parser.items_sound read
    cases run
    exact derived.complete

end PineLang
