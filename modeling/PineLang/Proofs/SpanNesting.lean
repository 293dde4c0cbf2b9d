import PineLang.Proofs.LosslessTokens
import PineLang.Proofs.Reports
import PineLang.Syntax.Walk

/-!
The spans of a tree nest. The parts of each node lie in it, one behind another, because a derivation covers lexemes that
follow one another and each node spans from the first of its lexemes to the last that is no layout (`span_nesting`). The
names of a tree have the spans of their tokens.
-/
namespace PineLang

theorem Span.cover_self (s : Span) : s.cover s = s := by
  rw [cover, if_pos rfl, Nat.min_self, Nat.max_self]

/-! ## Trees of spans -/

/-- What a part of a tree is: a node that a walk visits, a name, another part, or the content that a node lacks. -/
inductive Part where
  | node (kind : NodeKind)
  | name (text : String)
  | other
  | gap

/-- A part of a tree with its span and its own parts, in the order of the source. -/
inductive SpanTree where
  | node (part : Part) (span : Span) (parts : List SpanTree)

namespace SpanTree

/-- The span of the whole. -/
def span : SpanTree → Span
  | node _ s _ => s

/-- What a walk says of a part. -/
def visit (span : Span) : Part → List Visit
  | .node kind => [.node kind span]
  | .name _ | .other => []
  | .gap => [.broken]

mutual

/-- The nodes in pre-order. -/
def walk : SpanTree → List Visit
  | node part s ps => visit s part ++ walkAll ps

/-- The nodes of parts in pre-order. -/
@[simp] def walkAll : List SpanTree → List Visit
  | [] => []
  | t :: ts => t.walk ++ walkAll ts

end

@[simp] theorem walkAll_append (ts us : List SpanTree) : walkAll (ts ++ us) = walkAll ts ++ walkAll us := by
  induction ts with
  | nil => rfl
  | cons t ts ih => simp [walkAll, ih]

/-- What is asked of a part besides its place: a name is one that stands there, and nothing is missing. -/
def isThere (R : String → Span → Prop) (span : Span) : Part → Prop
  | .node _ | .other => True
  | .name n => R n span
  | .gap => False

mutual

/-- The whole lies in the file between two offsets, and its parts lie in it one behind another. -/
def Lies (R : String → Span → Prop) (file first last : Nat) : SpanTree → Prop
  | node part s ps =>
    s.file = file ∧ first ≤ s.start ∧ s.stop ≤ last ∧ isThere R s part ∧ InRow R file s.start s.stop ps

/-- The parts lie in the file one behind another between two offsets. -/
def InRow (R : String → Span → Prop) (file first last : Nat) : List SpanTree → Prop
  | [] => first ≤ last
  | t :: ts => t.Lies R file first last ∧ InRow R file t.span.stop last ts

end

section
variable {R : String → Span → Prop} {file first middle last : Nat} {t u : SpanTree} {ts us : List SpanTree}

mutual

theorem Lies.bounds : ∀ {t : SpanTree} {first last : Nat}, t.Lies R file first last →
    t.span.file = file ∧ first ≤ t.span.start ∧ t.span.start ≤ t.span.stop ∧ t.span.stop ≤ last
  | node _ _ _, _, _, ⟨isFile, start, stop, _, row⟩ => ⟨isFile, start, row.forward, stop⟩

theorem InRow.forward : ∀ {ts : List SpanTree} {first last : Nat}, InRow R file first last ts → first ≤ last
  | [], _, _, forward => forward
  | t :: ts, first, last, ⟨lies, row⟩ => by
    have := lies.bounds
    omega

end

theorem Lies.mono {first' last' : Nat} (lies : t.Lies R file first last) (start : first' ≤ first) (stop : last ≤ last') :
    t.Lies R file first' last' := by
  obtain ⟨part, s, ps⟩ := t
  obtain ⟨isFile, above, below, there, row⟩ := lies
  exact ⟨isFile, Nat.le_trans start above, Nat.le_trans below stop, there, row⟩

/-- A part lies where its span says. -/
theorem Lies.here (lies : t.Lies R file first last) : t.Lies R file t.span.start t.span.stop := by
  obtain ⟨part, s, ps⟩ := t
  obtain ⟨isFile, -, -, there, row⟩ := lies
  exact ⟨isFile, Nat.le_refl _, Nat.le_refl _, there, row⟩

theorem InRow.mono {first' last' : Nat} (row : InRow R file first last ts) (start : first' ≤ first) (stop : last ≤ last') :
    InRow R file first' last' ts := by
  induction ts generalizing first first' with
  | nil => exact Nat.le_trans start (Nat.le_trans row stop)
  | cons t ts ih => exact ⟨row.1.mono start stop, ih row.2 (Nat.le_refl _)⟩

theorem InRow.cons (lies : t.Lies R file first middle) (row : InRow R file middle last ts) : InRow R file first last (t :: ts) :=
  ⟨lies.mono (Nat.le_refl _) row.forward, row.mono lies.bounds.2.2.2 (Nat.le_refl _)⟩

theorem InRow.next (lies : t.Lies R file first last) (row : InRow R file t.span.stop last ts) : InRow R file first last (t :: ts) :=
  ⟨lies, row⟩

theorem InRow.single (lies : t.Lies R file first last) : InRow R file first last [t] := ⟨lies, lies.bounds.2.2.2⟩

theorem InRow.append (before : InRow R file first middle ts) (behind : InRow R file middle last us) :
    InRow R file first last (ts ++ us) := by
  induction ts generalizing first with
  | nil => exact behind.mono before (Nat.le_refl _)
  | cons t ts ih => exact ⟨before.1.mono (Nat.le_refl _) behind.forward, ih before.2⟩

/-- A row can be cut anywhere. -/
theorem InRow.cut (row : InRow R file first last (ts ++ us)) :
    ∃ middle, InRow R file first middle ts ∧ InRow R file middle last us := by
  induction ts generalizing first with
  | nil => exact ⟨first, Nat.le_refl _, row⟩
  | cons t ts ih =>
    obtain ⟨lies, others⟩ := row
    obtain ⟨middle, before, behind⟩ := ih others
    exact ⟨middle, ⟨(lies.here.mono lies.bounds.2.1 before.forward), before⟩, behind⟩

theorem InRow.sublist (row : InRow R file first last ts) (sub : us.Sublist ts) : InRow R file first last us := by
  induction sub generalizing first with
  | slnil => exact row
  | cons t sub ih => exact (ih row.2).mono (row.1.bounds.2.1.trans row.1.bounds.2.2.1) (Nat.le_refl _)
  | cons_cons t sub ih => exact ⟨row.1, ih row.2⟩

/-- What spans from one place to another holds what stands between them. -/
theorem Lies.spanning {part : Part} {ps : List SpanTree} (begins : t.Lies R file first middle) (ends : u.Lies R file middle last)
    (row : InRow R file t.span.start u.span.stop ps) (there : isThere R (t.span.cover u.span) part) :
    (node part (t.span.cover u.span) ps).Lies R file first last := by
  obtain ⟨isFile, start, forward, stop⟩ := begins.bounds
  obtain ⟨isFile', start', forward', stop'⟩ := ends.bounds
  have shape : t.span.cover u.span = ⟨file, t.span.start, u.span.stop⟩ := by
    rw [Span.cover, isFile, isFile', if_pos rfl, Nat.min_eq_left (by omega), Nat.max_eq_right (by omega)]
  rw [shape] at there ⊢
  exact ⟨rfl, start, stop', there, row⟩

/-- What spans from the first to the last of a row holds what stands in the row. -/
theorem Lies.covering {part : Part} {a b : Span} {ps : List SpanTree} (row : InRow R file first last (t :: ts)) (begins : t.span = a)
    (ends : ts.getLast?.map span = some b) (sub : ps.Sublist (t :: ts)) (there : isThere R (a.cover b) part) :
    (node part (a.cover b) ps).Lies R file first last := by
  obtain ⟨u, isLast, rfl⟩ := Option.map_eq_some_iff.mp ends
  obtain ⟨us, rfl⟩ := List.getLast?_eq_some_iff.mp isLast
  rw [← List.cons_append] at row
  obtain ⟨middle, ⟨head, between⟩, tail, -⟩ := row.cut
  subst begins
  have inside : InRow R file t.span.start u.span.stop (t :: (us ++ [u])) :=
    .cons head.here (between.append (.single (tail.here.mono tail.bounds.2.1 (Nat.le_refl _))))
  exact .spanning head tail (inside.sublist sub) there

/-- What spans one part holds it. -/
theorem Lies.around {part : Part} {a : Span} (lies : t.Lies R file first last) (same : t.span = a) (there : isThere R a part) :
    (node part a [t]).Lies R file first last := by
  obtain ⟨isFile, start, -, stop⟩ := lies.bounds
  subst same
  exact ⟨isFile, start, stop, there, .single lies.here⟩

/-- So does what spans nothing else. -/
theorem Lies.bare {part : Part} {a : Span} (lies : t.Lies R file first last) (same : t.span = a) (there : isThere R a part) :
    (node part a []).Lies R file first last := by
  obtain ⟨isFile, start, forward, stop⟩ := lies.bounds
  subst same
  exact ⟨isFile, start, stop, there, forward⟩

end

/-- A token that the tree may name. -/
def ofLexeme (l : Lexeme) : SpanTree := .node (if l.kind = .ident then .name l.text else .other) l.span []

/-- The content of a node, if it has none but calls for some. -/
def gapIf (lacks : Bool) : List SpanTree := if lacks then [.node .gap {} []] else []

/-- A name without parts. -/
def ofName (n : String) (s : Span) : SpanTree := .node (.name n) s []

theorem ofLexeme_name {l : Lexeme} (isName : l.kind = .ident) : ofLexeme l = ofName l.text l.span := by
  rw [ofLexeme, if_pos isName, ofName]

end SpanTree

/-! ## The spans of a file -/

/-- A type without parts. -/
def TypeRef.spanTree (r : TypeRef) : SpanTree := .node (.node .type) r.span []

/-- A parameter or field, and its type. -/
def Param.spanTree (p : Param) : SpanTree := .node (.node .param) p.span [p.type.spanTree]

mutual

/-- An expression with the expressions and names in it. -/
def Expr.spanTree : Expr → SpanTree
  | .ident s _ | .lit s _ => .node (.node .expr) s []
  | .assign s a b => .node (.node .expr) s [a.spanTree, b.spanTree]
  | .call s f args => .node (.node .expr) s (f.spanTree :: exprTrees args)
  | .member s t n fieldSpan => .node (.node .expr) s [t.spanTree, .ofName n fieldSpan]
  | .unary s _ x => .node (.node .expr) s [x.spanTree]
  | .binary s _ a b => .node (.node .expr) s [a.spanTree, b.spanTree]
  | .group s x => .node (.node .expr) s [x.spanTree]
  | .structLit s n nameSpan fs => .node (.node .expr) s (.ofName n nameSpan :: fieldTrees fs)
  | .absent _ => .node .other {} []
  | .hollow s k => .node (.node .expr) s (SpanTree.gapIf (exprKindHasParts k))

/-- Expressions in their order. -/
def exprTrees : List Expr → List SpanTree
  | [] => []
  | x :: xs => x.spanTree :: exprTrees xs

/-- A field of a literal with its value. -/
def FieldInit.spanTree : FieldInit → SpanTree
  | .mk _ s v => .node .other s [v.spanTree]

/-- The fields of a literal in their order. -/
def fieldTrees : List FieldInit → List SpanTree
  | [] => []
  | f :: fs => f.spanTree :: fieldTrees fs

end

/-- An expression, if there is one. -/
def optionTrees : Option Expr → List SpanTree
  | none => []
  | some x => [x.spanTree]

mutual

/-- A statement with what is in it. -/
def Stmt.spanTree : Stmt → SpanTree
  | .block s ss => .node (.node .stmt) s (stmtTrees ss)
  | .expr s x => .node (.node .stmt) s [x.spanTree]
  | .cond s t yes no => .node (.node .stmt) s (t.spanTree :: yes.spanTree :: elseTrees no)
  | .ret s v => .node (.node .stmt) s (optionTrees v)
  | .bind s n nameSpan ty v => .node (.node .stmt) s [.ofName n nameSpan, ty.spanTree, v.spanTree]
  | .loop s b => .node (.node .stmt) s [b.spanTree]
  | .brk s | .empty s => .node (.node .stmt) s []
  | .absent _ => .node .other {} []
  | .hollow s k => .node (.node .stmt) s (SpanTree.gapIf (stmtKindHasParts k))

/-- A body with its statements. -/
def Body.spanTree : Body → SpanTree
  | .block s ss => .node (.node .stmt) s (stmtTrees ss)
  | .stray _ s => s.spanTree

/-- A branch, if there is one. -/
def elseTrees : Option Body → List SpanTree
  | none => []
  | some b => [b.spanTree]

/-- Statements in their order. -/
def stmtTrees : List Stmt → List SpanTree
  | [] => []
  | s :: ss => s.spanTree :: stmtTrees ss

end

/-- A declaration with its name and what is in it. -/
def Item.spanTree : Item → SpanTree
  | fn d => .node (.node .item) d.span
      (.ofName d.name d.nameSpan :: (d.params.map Param.spanTree ++ [d.ret.spanTree, d.body.spanTree]))
  | struct d => .node (.node .item) d.span (.ofName d.name d.nameSpan :: d.fields.map Param.spanTree)
  | absent _ => .node .other {} []
  | hollow s k => .node (.node .item) s (SpanTree.gapIf (k ≤ 1))

/-- A file with its declarations. -/
def File.spanTree (f : File) : SpanTree := .node (.node .file) f.span (f.items.map Item.spanTree)

@[simp] theorem Expr.spanTree_span (e : Expr) : e.spanTree.span = e.span := by
  cases e <;> rfl

@[simp] theorem Stmt.spanTree_span (s : Stmt) : s.spanTree.span = s.span := by
  cases s <;> rfl

@[simp] theorem Body.spanTree_span (b : Body) : b.spanTree.span = b.span := by
  cases b with
  | block => rfl
  | stray id s => exact s.spanTree_span

namespace Grammar
open SpanTree

/-! ## Expressions -/

section
variable {R : String → Span → Prop} {file first last : Nat}

theorem annotation_lies {l : Lexeme} {ref : TypeRef} (isType : annotation? l = some ref)
    (lies : (ofLexeme l).Lies R file first last) : ref.spanTree.Lies R file first l.span.stop := by
  have same : l.span = ref.span := by
    unfold annotation? at isType
    split at isType <;> cases isType <;> rfl
  have inside : (ofLexeme l).Lies R file first l.span.stop := lies.here.mono lies.bounds.2.1 (Nat.le_refl _)
  exact .bare inside same trivial

theorem leaf_lies {l : Lexeme} {e : Expr} (isLeaf : leaf? l = some e) (lies : (ofLexeme l).Lies R file first last) :
    e.spanTree.Lies R file first last := by
  unfold leaf? at isLeaf
  split at isLeaf
  all_goals cases isLeaf
  all_goals exact .bare lies rfl trivial

theorem Field.lies {ts : List Lexeme} {p : Param} : Field ts p → InRow R file first last (ts.map ofLexeme) →
    p.spanTree.Lies R file first last
  | .mk _ _ isType, ⟨name, colon, type, forward⟩ =>
    .covering (.next name (.next colon (.cons (annotation_lies isType type) forward))) rfl rfl (.cons _ (.cons _ (.refl _)))
      trivial

theorem init_lies {name colon : Lexeme} {e : Expr}
    (row : InRow R file first last [ofLexeme name, ofLexeme colon, e.spanTree]) :
    (FieldInit.mk name.text (name.span.cover e.span) e).spanTree.Lies R file first last :=
  .covering row rfl (congrArg some e.spanTree_span) (.cons _ (.cons _ (.refl _))) trivial

mutual

theorem Expression.lies {least first last : Nat} {ts : List Lexeme} {e : Expr} :
    Expression least ts e → InRow R file first last (ts.map ofLexeme) → e.spanTree.Lies R file first last
  | .operand inner, row => inner.lies row
  | .binary lhs _ _ rhs, row => by
    rw [List.map_append] at row
    obtain ⟨middle, before, sign, behind⟩ := row.cut
    exact .covering (.cons (lhs.lies before) (.next sign (.single (rhs.lies behind)))) (Expr.spanTree_span _)
      (congrArg some (Expr.spanTree_span _)) (.cons_cons _ (.cons _ (.refl _))) trivial
  | .assign lhs isTarget isAssign _ rhs, row => by
    rw [List.map_append] at row
    obtain ⟨middle, before, sign, behind⟩ := row.cut
    exact .covering (.cons (lhs.lies before) (.next sign (.single (rhs.lies behind)))) (Expr.spanTree_span _)
      (congrArg some (Expr.spanTree_span _)) (.cons_cons _ (.cons _ (.refl _))) trivial

theorem Prefixed.lies {first last : Nat} {ts : List Lexeme} {e : Expr} :
    Prefixed ts e → InRow R file first last (ts.map ofLexeme) → e.spanTree.Lies R file first last
  | .plain inner, row => inner.lies row
  | .sign _ inner, ⟨sign, behind⟩ =>
    .covering (.next sign (.single (inner.lies behind))) rfl (congrArg some (Expr.spanTree_span _)) (.cons _ (.refl _)) trivial

theorem Postfixed.lies {first last : Nat} {ts : List Lexeme} {e : Expr} :
    Postfixed ts e → InRow R file first last (ts.map ofLexeme) → e.spanTree.Lies R file first last
  | .plain inner, row => inner.lies row
  | .call callee opens inner closes, row => by
    rw [List.map_append, List.map_cons, List.map_append] at row
    obtain ⟨middle, before, opening, behind⟩ := row.cut
    obtain ⟨middle', between, closing⟩ := behind.cut
    exact .covering (.cons (callee.lies before) (.next opening ((inner.lies between).append closing))) (Expr.spanTree_span _)
      (by rw [List.map_singleton, ← List.cons_append, List.getLast?_concat]; rfl) (.cons_cons _ (.cons _ (List.sublist_append_left _ _))) trivial
  | .member target isPoint isName, row => by
    rw [List.map_append] at row
    obtain ⟨middle, before, point, field⟩ := row.cut
    rw [List.map_singleton, ofLexeme_name isName] at field
    exact .covering (.cons (target.lies before) (.next point field)) (Expr.spanTree_span _) rfl
      (.cons_cons _ (.cons _ (.refl _))) trivial

theorem Primary.lies {first last : Nat} {ts : List Lexeme} {e : Expr} :
    Primary ts e → InRow R file first last (ts.map ofLexeme) → e.spanTree.Lies R file first last
  | .leaf isLeaf, ⟨lies, _⟩ => leaf_lies isLeaf lies
  | .group opens inner closes, ⟨opening, behind⟩ => by
    rw [List.map_append] at behind
    obtain ⟨middle, between, closing⟩ := behind.cut
    exact .covering (.next opening (.cons (inner.lies between) closing)) rfl rfl (.cons _ (.cons_cons _ (.cons _ .slnil))) trivial
  | .literal isName opens inner closes, ⟨name, opening, behind⟩ => by
    rw [List.map_append] at behind
    obtain ⟨middle, between, closing⟩ := behind.cut
    rw [ofLexeme_name isName] at name opening
    exact .covering (.next name (.next opening ((inner.lies between).append closing))) rfl
      (by rw [List.map_singleton, ← List.cons_append, List.getLast?_concat]; rfl) (.cons_cons _ (.cons _ (List.sublist_append_left _ _))) trivial

theorem Arguments.lies {first last : Nat} {ts : List Lexeme} {es : List Expr} :
    Arguments ts es → InRow R file first last (ts.map ofLexeme) → InRow R file first last (exprTrees es)
  | .none, row => row
  | .last arg, row => .single (arg.lies row)
  | .more arg isComma rest, row => by
    rw [List.map_append] at row
    obtain ⟨middle, before, comma, behind⟩ := row.cut
    exact (InRow.cons (arg.lies before) (.next comma (rest.lies behind))).sublist (.cons_cons _ (.cons _ (.refl _)))

theorem Inits.lies {first last : Nat} {ts : List Lexeme} {fs : List FieldInit} :
    Inits ts fs → InRow R file first last (ts.map ofLexeme) → InRow R file first last (fieldTrees fs)
  | .none, row => row
  | .last _ _ value, ⟨name, colon, behind⟩ => .single (init_lies (.next name (.next colon (.single (value.lies behind)))))
  | .more isName isColon value isComma rest, row => by
    rw [← List.cons_append, ← List.cons_append, List.map_append] at row
    obtain ⟨middle, ⟨name, colon, between⟩, comma, more⟩ := row.cut
    have field := init_lies (.next name (.next colon (.single (value.lies between))))
    exact (InRow.cons field (.next comma (rest.lies more))).sublist (.cons_cons _ (.cons _ (.refl _)))

end

/-! ## Statements -/

theorem stmtTrees_eq (ss : List Stmt) : stmtTrees ss = ss.map Stmt.spanTree := by
  induction ss with
  | nil => rfl
  | cons s ss ih => rw [stmtTrees, ih, List.map_cons]

/-- What spans from the first to the last of some statements holds them. -/
theorem indented_lies {ss : List Stmt} (some : ss ≠ []) (row : InRow R file first last (stmtTrees ss)) :
    (Body.block (Parser.stmtsSpan ss) ss).spanTree.Lies R file first last := by
  match ss, some with
  | [s], _ =>
    have same : Parser.stmtsSpan [s] = s.span := s.span.cover_self
    exact .around row.1 (s.spanTree_span.trans same.symm) trivial
  | s :: t :: more, _ =>
    have ends : (stmtTrees (t :: more)).getLast?.map SpanTree.span = Option.some ((s :: t :: more).getLastD s).span := by
      rw [stmtTrees_eq, List.getLast?_map, List.getLast?_cons, List.getLastD_cons, List.getLastD_cons, List.getLastD_eq_getLast?]
      exact congrArg Option.some (Stmt.spanTree_span _)
    exact .covering row s.spanTree_span ends (.refl _) trivial

mutual

theorem Statement.lies {nearest closed opened : Bool} {first last : Nat} {ts : List Lexeme} {s : Stmt} :
    Statement nearest ts s closed opened → InRow R file first last (ts.map ofLexeme) → s.spanTree.Lies R file first last
  | .only isIf cond isColon inner, ⟨head, behind⟩ => by
    rw [List.map_append] at behind
    obtain ⟨middle, before, colon, body⟩ := behind.cut
    exact .covering (.next head (.cons (cond.lies before) (.next colon (.single (inner.lies body))))) rfl
      (congrArg some (Body.spanTree_span _)) (.cons _ (.cons_cons _ (.cons _ (.refl _)))) trivial
  | .both isIf cond isColon inner _ isElse isColon' other, ⟨head, behind⟩ => by
    rw [List.map_append, List.map_cons, List.map_append] at behind
    obtain ⟨middle, before, colon, rest⟩ := behind.cut
    obtain ⟨middle', body, isElse, colon', branch⟩ := rest.cut
    exact .covering (.next head (.cons (cond.lies before) (.next colon (.cons (inner.lies body)
      (.next isElse (.next colon' (.single (other.lies branch)))))))) rfl (congrArg some (Body.spanTree_span _))
      (.cons _ (.cons_cons _ (.cons _ (.cons_cons _ (.cons _ (.cons _ (.refl _))))))) trivial
  | .chain isIf cond isColon inner _ isElse other, ⟨head, behind⟩ => by
    rw [List.map_append, List.map_cons, List.map_append] at behind
    obtain ⟨middle, before, colon, rest⟩ := behind.cut
    obtain ⟨middle', body, isElse, branch⟩ := rest.cut
    have nested : (Body.block _ [_]).spanTree.Lies R file _ last := .around (other.lies branch) (Stmt.spanTree_span _) trivial
    exact .covering (.next head (.cons (cond.lies before) (.next colon (.cons (inner.lies body)
      (.next isElse (.single nested)))))) rfl rfl
      (.cons _ (.cons_cons _ (.cons _ (.cons_cons _ (.cons _ (.refl _)))))) trivial
  | .bare isReturn, ⟨head, _⟩ => .bare head rfl trivial
  | .value isReturn inner, ⟨head, behind⟩ =>
    .covering (.next head (.single (inner.lies behind))) rfl (congrArg some (Expr.spanTree_span _)) (.cons _ (.refl _)) trivial
  | .leave isBreak, ⟨head, _⟩ => .bare head rfl trivial
  | .loop isLoop isColon inner, ⟨head, colon, behind⟩ =>
    .covering (.next head (.next colon (.single (inner.lies behind)))) rfl (congrArg some (Body.spanTree_span _))
      (.cons _ (.cons _ (.refl _))) trivial
  | .bind isLet isName isColon isType isAssign inner, ⟨head, name, colon, type, sign, behind⟩ => by
    rw [ofLexeme_name isName] at name colon
    exact .covering (.next head (.next name (.next colon (.cons (annotation_lies isType type)
      (.next sign (.single (inner.lies behind))))))) rfl (congrArg some (Expr.spanTree_span _))
      (.cons _ (.cons_cons _ (.cons _ (.cons_cons _ (.cons _ (.refl _)))))) trivial
  | .empty isUnderscore, ⟨head, _⟩ => .bare head rfl trivial
  | .expr inner, row => .around (inner.lies row) (Expr.spanTree_span _) trivial

theorem Block.lies {nearest closed opened : Bool} {first last : Nat} {ts : List Lexeme} {b : Body} :
    Block nearest ts b closed opened → InRow R file first last (ts.map ofLexeme) → b.spanTree.Lies R file first last
  | .line inner, row => .around (inner.lies row) (Stmt.spanTree_span _) trivial
  | .indented _ _ inner, ⟨newline, indent, behind⟩ =>
    indented_lies inner.nonempty ((inner.lies behind).mono
      (newline.bounds.2.1.trans (newline.bounds.2.2.1.trans (indent.bounds.2.1.trans indent.bounds.2.2.1))) (Nat.le_refl _))

theorem Lines.lies {nearest : Bool} {first last : Nat} {ts : List Lexeme} {ss : List Stmt} :
    Lines nearest ts ss → InRow R file first last (ts.map ofLexeme) → InRow R file first last (stmtTrees ss)
  | .last inner ends isDedent, row => by
    rw [List.map_append] at row
    obtain ⟨middle, before, behind⟩ := row.cut
    exact (InRow.single (inner.lies before)).mono (Nat.le_refl _) behind.forward
  | .more inner ends rest, row => by
    rw [List.map_append, List.map_append] at row
    obtain ⟨middle, before, behind⟩ := row.cut
    obtain ⟨middle', separator, more⟩ := behind.cut
    exact .cons (inner.lies before) ((rest.lies more).mono separator.forward (Nat.le_refl _))

end

/-! ## Declarations -/

theorem Params.lies {ts : List Lexeme} {ps : List Param} {first : Nat} :
    Params ts ps → InRow R file first last (ts.map ofLexeme) → InRow R file first last (ps.map Param.spanTree)
  | .last field, row => .single (field.lies row)
  | .more field isComma rest, row => by
    rw [List.map_append] at row
    obtain ⟨middle, before, comma, behind⟩ := row.cut
    exact (InRow.cons (field.lies before) (.next comma (rest.lies behind))).sublist (.cons_cons _ (.cons _ (.refl _)))

theorem FieldLines.lies {ts : List Lexeme} {ps : List Param} {first : Nat} :
    FieldLines ts ps → InRow R file first last (ts.map ofLexeme) → InRow R file first last (ps.map Param.spanTree)
  | .last field ends isDedent, row => by
    rw [List.map_append] at row
    obtain ⟨middle, before, behind⟩ := row.cut
    exact .cons (field.lies before) behind.forward
  | .more field ends rest, row => by
    rw [List.map_append, List.map_append] at row
    obtain ⟨middle, before, behind⟩ := row.cut
    obtain ⟨middle', separator, more⟩ := behind.cut
    exact .cons (field.lies before) ((rest.lies more).mono separator.forward (Nat.le_refl _))

theorem BracedFields.lies {ts : List Lexeme} {ps : List Param} {first : Nat} :
    BracedFields ts ps → InRow R file first last (ts.map ofLexeme) → InRow R file first last (ps.map Param.spanTree)
  | .none, row => row
  | .last field, row => .single (field.lies row)
  | .more field isComma rest, row => by
    rw [List.map_append] at row
    obtain ⟨middle, before, comma, behind⟩ := row.cut
    exact (InRow.cons (field.lies before) (.next comma (rest.lies behind))).sublist (.cons_cons _ (.cons _ (.refl _)))

theorem ParamList.lies {ts : List Lexeme} {ps : List Param} :
    ParamList ts ps → InRow R file first last (ts.map ofLexeme) → InRow R file first last (ps.map Param.spanTree)
  | .none, row => row
  | .some params, row => params.lies row

theorem FieldLines.nonempty {ts : List Lexeme} {ps : List Param} (derived : FieldLines ts ps) : ps ≠ [] := by
  cases derived <;> exact List.cons_ne_nil _ _

theorem Declaration.lies {nearest closed : Bool} {ts : List Lexeme} {i : Item} :
    Declaration nearest ts i closed → InRow R file first last (ts.map ofLexeme) → i.spanTree.Lies R file first last
  | .fn isFun isName opens fields closes isArrow isType isColon inner, ⟨head, name, opening, behind⟩ => by
    rw [List.map_append] at behind
    obtain ⟨middle, before, closing, arrow, type, colon, body⟩ := behind.cut
    rw [ofLexeme_name isName] at name opening
    have row := (fields.lies before).append (.next closing (.next arrow (.cons (annotation_lies isType type)
      (.next colon (.single (inner.lies body))))))
    refine .covering (.next head (.next name (.next opening row))) rfl ?_ (.cons _ (.cons_cons _ (.cons _
      (.append (.refl _) (.cons _ (.cons _ (.cons_cons _ (.cons _ (.refl _))))))))) trivial
    simp [List.getLast?_cons, List.getLast?_append]
  | .indented isType isName isColon isBreak isIndent fields, ⟨head, name, colon, newline, indent, behind⟩ => by
    rw [ofLexeme_name isName] at name colon
    refine .covering (.next head (.next name (.next colon (.next newline (.next indent (fields.lies behind)))))) rfl ?_
      (.cons _ (.cons_cons _ (.cons _ (.cons _ (.cons _ (.refl _)))))) trivial
    obtain ⟨p, ps, rfl⟩ := List.exists_cons_of_ne_nil fields.nonempty
    simp only [List.map_cons, List.getLast?_cons, List.getLast?_map, Option.map_some,
      Option.getD_some]
    cases ps.getLast? <;> rfl
  | .braced isType isName opens fields closes, ⟨head, name, opening, behind⟩ => by
    rw [List.map_append] at behind
    obtain ⟨middle, before, closing⟩ := behind.cut
    rw [ofLexeme_name isName] at name opening
    refine .covering (.next head (.next name (.next opening ((fields.lies before).append closing)))) rfl ?_ (.cons _ (.cons_cons _ (.cons _ (List.sublist_append_left _ _)))) trivial
    rw [List.map_singleton, ← List.cons_append, ← List.cons_append, List.getLast?_concat]
    rfl

theorem Declarations.lies {nearest : Bool} {ts : List Lexeme} {is : List Item} {first : Nat} :
    Declarations nearest ts is → InRow R file first last (ts.map ofLexeme) → InRow R file first last (is.map Item.spanTree)
  | .none, row => row
  | .skip isBreak rest, ⟨newline, behind⟩ =>
    (rest.lies behind).mono (newline.bounds.2.1.trans newline.bounds.2.2.1) (Nat.le_refl _)
  | .more inner ends rest, row => by
    rw [List.map_append, List.map_append] at row
    obtain ⟨middle, before, behind⟩ := row.cut
    obtain ⟨middle', separator, more⟩ := behind.cut
    exact .cons (inner.lies before) ((rest.lies more).mono separator.forward (Nat.le_refl _))

end

end Grammar

open SpanTree

/-! ## Walks -/

theorem gapIf_walk (lacks : Bool) : walkAll (gapIf lacks) = if lacks then [.broken] else [] := by
  cases lacks <;> rfl

theorem params_walk (ps : List Param) : walkAll (ps.map Param.spanTree) = ps.flatMap Param.walk := by
  induction ps with
  | nil => rfl
  | cons p ps ih => rw [List.map_cons, walkAll, ih, List.flatMap_cons]; rfl

mutual

/-- The nodes among the parts are those that a walk visits. -/
theorem Expr.walk_eq : ∀ e : Expr, e.spanTree.walk = e.walk
  | .ident _ _ | .lit _ _ | .absent _ => rfl
  | .assign s a b | .binary s _ a b => by
    rw [Expr.spanTree, SpanTree.walk, walkAll, walkAll, walkAll, a.walk_eq, b.walk_eq, List.append_nil]; rfl
  | .call s f args => by rw [Expr.spanTree, SpanTree.walk, walkAll, f.walk_eq, exprTrees_walk args]; rfl
  | .member s t _ _ => by rw [Expr.spanTree, SpanTree.walk, walkAll, t.walk_eq]; exact congrArg _ (List.append_nil _)
  | .unary s _ x | .group s x => by rw [Expr.spanTree, SpanTree.walk, walkAll, walkAll, x.walk_eq, List.append_nil]; rfl
  | .structLit s _ _ fs => by rw [Expr.spanTree, SpanTree.walk, walkAll, fieldTrees_walk fs]; rfl
  | .hollow s k => by rw [Expr.spanTree, SpanTree.walk, gapIf_walk]; rfl
termination_by structural e => e

theorem exprTrees_walk : ∀ es : List Expr, walkAll (exprTrees es) = walkExprs es
  | [] => rfl
  | e :: es => by rw [exprTrees, walkAll, walkExprs, e.walk_eq, exprTrees_walk es]
termination_by structural es => es

theorem FieldInit.walk_eq : ∀ f : FieldInit, f.spanTree.walk = f.walk
  | .mk _ _ v => by rw [FieldInit.spanTree, SpanTree.walk, walkAll, walkAll, v.walk_eq, List.append_nil]; rfl
termination_by structural f => f

theorem fieldTrees_walk : ∀ fs : List FieldInit, walkAll (fieldTrees fs) = walkFields fs
  | [] => rfl
  | f :: fs => by rw [fieldTrees, walkAll, walkFields, f.walk_eq, fieldTrees_walk fs]
termination_by structural fs => fs

end

theorem optionTrees_walk (v : Option Expr) : walkAll (optionTrees v) = walkOption v := by
  cases v with
  | none => rfl
  | some x => rw [optionTrees, walkAll, walkAll, x.walk_eq, List.append_nil]; rfl

mutual

theorem Stmt.walk_eq : ∀ s : Stmt, s.spanTree.walk = s.walk
  | .block s ss => by rw [Stmt.spanTree, SpanTree.walk, stmtTrees_walk ss]; rfl
  | .expr s x => by rw [Stmt.spanTree, SpanTree.walk, walkAll, walkAll, x.walk_eq, List.append_nil]; rfl
  | .cond s t yes no => by
    rw [Stmt.spanTree, SpanTree.walk, walkAll, walkAll, t.walk_eq, yes.walk_eq, elseTrees_walk no, ← List.append_assoc t.walk]; rfl
  | .ret s v => by rw [Stmt.spanTree, SpanTree.walk, optionTrees_walk]; rfl
  | .bind s _ _ ty v => by rw [Stmt.spanTree, SpanTree.walk, walkAll, walkAll, walkAll, walkAll, v.walk_eq, List.append_nil]; rfl
  | .loop s b => by rw [Stmt.spanTree, SpanTree.walk, walkAll, walkAll, b.walk_eq, List.append_nil]; rfl
  | .brk _ | .empty _ | .absent _ => rfl
  | .hollow s k => by rw [Stmt.spanTree, SpanTree.walk, gapIf_walk]; rfl
termination_by structural s => s

theorem Body.walk_eq : ∀ b : Body, b.spanTree.walk = b.walk
  | .block s ss => by rw [Body.spanTree, SpanTree.walk, stmtTrees_walk ss]; rfl
  | .stray _ s => s.walk_eq
termination_by structural b => b

theorem elseTrees_walk : ∀ no : Option Body, walkAll (elseTrees no) = walkElse no
  | none => rfl
  | some b => by rw [elseTrees, walkAll, walkAll, b.walk_eq, List.append_nil]; rfl
termination_by structural no => no

theorem stmtTrees_walk : ∀ ss : List Stmt, walkAll (stmtTrees ss) = walkStmts ss
  | [] => rfl
  | s :: ss => by rw [stmtTrees, walkAll, walkStmts, s.walk_eq, stmtTrees_walk ss]
termination_by structural ss => ss

end

theorem Item.walk_eq (i : Item) : i.spanTree.walk = i.walk := by
  cases i with
  | fn d =>
    rw [Item.spanTree, SpanTree.walk, walkAll, walkAll_append, params_walk, walkAll, walkAll, walkAll, d.body.walk_eq, List.append_nil]
    rfl
  | struct d => rw [Item.spanTree, SpanTree.walk, walkAll, params_walk]; rfl
  | absent => rfl
  | hollow s k =>
    rw [Item.spanTree, SpanTree.walk, gapIf_walk, Item.walk]
    simp [visit]

theorem File.walk_eq (f : File) : f.spanTree.walk = f.walk := by
  have items (is : List Item) : walkAll (is.map Item.spanTree) = is.flatMap Item.walk := by
    induction is with
    | nil => rfl
    | cons i is ih => rw [List.map_cons, walkAll, i.walk_eq, ih, List.flatMap_cons]
  rw [File.spanTree, SpanTree.walk, items]
  rfl

/-! ## Visits -/

section
variable {R : String → Span → Prop} {file first last : Nat}

/-- A walk comes upon a node with a span of the file between two offsets. -/
def Visit.Within (file first last : Nat) (v : Visit) : Prop :=
  ∃ k s, v = .node k s ∧ s.file = file ∧ first ≤ s.start ∧ s.start ≤ s.stop ∧ s.stop ≤ last

theorem Visit.Within.mono {first' last' : Nat} {v : Visit} (within : v.Within file first last) (start : first' ≤ first)
    (stop : last ≤ last') : v.Within file first' last' := by
  obtain ⟨k, s, shape, isFile, above, forward, below⟩ := within
  exact ⟨k, s, shape, isFile, start.trans above, forward, below.trans stop⟩

mutual

theorem SpanTree.Lies.visits : ∀ {t : SpanTree} {first last : Nat}, t.Lies R file first last →
    ∀ v ∈ t.walk, v.Within file first last
  | .node part s ps, first, last, ⟨isFile, start, stop, isThere, row⟩ => by
    intro v member
    obtain own | inner := List.mem_append.mp member
    · cases part with
      | node k =>
        obtain rfl := List.mem_singleton.mp own
        exact ⟨k, s, rfl, isFile, start, row.forward, stop⟩
      | name | other => cases own
      | gap => exact isThere.elim
    · exact (row.visits v inner).mono start stop

theorem SpanTree.InRow.visits : ∀ {ts : List SpanTree} {first last : Nat}, InRow R file first last ts →
    ∀ v ∈ walkAll ts, v.Within file first last
  | [], _, _, _ => List.forall_mem_nil _
  | t :: ts, first, last, ⟨lies, row⟩ => by
    obtain ⟨-, start, forward, -⟩ := lies.bounds
    exact List.forall_mem_append.mpr ⟨lies.visits, fun v member => (row.visits v member).mono (start.trans forward) (Nat.le_refl _)⟩

end

end

/-- A walk on which no node is stopped at goes to the end. -/
theorem visitUntil_passes {stop : NodeKind → Span → Bool} {walk : List Visit}
    (passes : ∀ v ∈ walk, ∃ k s, v = .node k s ∧ stop k s = false) :
    ∃ vs, visitUntil stop walk = some vs ∧ ∀ p ∈ vs, stop p.1 p.2 = false := by
  induction walk with
  | nil => exact ⟨[], rfl, List.forall_mem_nil _⟩
  | cons v walk ih =>
    obtain ⟨⟨k, s, rfl, goesOn⟩, others⟩ := List.forall_mem_cons.mp passes
    obtain ⟨vs, reached, each⟩ := ih others
    refine ⟨(k, s) :: vs, ?_, List.forall_mem_cons.mpr ⟨goesOn, each⟩⟩
    rw [visitUntil, goesOn, reached]
    rfl

theorem spanFault_none {f : File} {id length : Nat} (inFile : ∀ v ∈ f.walk, v.Within id f.span.start f.span.stop)
    (isFile : f.span.file = id) (fits : f.span.stop ≤ length) : f.spanFault id length = some none := by
  have passes : ∀ v ∈ f.walk, ∃ k s, v = .node k s ∧ (spanFault? f.span id length k s).isSome = false := by
    intro v member
    obtain ⟨k, s, shape, same, start, forward, stop⟩ := inFile v member
    have inside : f.span.contains s = true := by simp [Span.contains, isFile, same, start, stop]
    refine ⟨k, s, shape, ?_⟩
    rw [spanFault?, if_neg (by omega), if_neg (by simp [same]), if_neg (by omega), if_neg (by simp [inside])]
    rfl
  obtain ⟨vs, reached, each⟩ := visitUntil_passes passes
  rw [File.spanFault, reached, Option.map_some]
  cases last : vs.getLast? with
  | none => rfl
  | some p => exact congrArg some (Option.not_isSome_iff_eq_none.mp (by rw [each p (List.mem_of_getLast? last)]; exact Bool.false_ne_true))

/-! ## Parsed files -/

/-- The bytes of a span. -/
def bytesOf (source : Bytes) (s : Span) : Bytes := (source.take s.stop).drop s.start

/-- Tokens that make up a source from an offset on stand in a row there. -/
theorem MakeUp.row {R : String → Span → Prop} {file off : Nat} {afterBreak : Bool} {source : Bytes} {ts : List Token}
    (made : MakeUp file afterBreak off source ts) (isName : ∀ t ∈ ts, t.kind = .ident → R t.text t.span) :
    InRow R file off (off + source.length) (ts.map fun t => ofLexeme (.token t)) := by
  induction made with
  | done => exact Nat.le_refl _
  | @token afterBreak off gap bytes rest t ts apart span tells more ih =>
    obtain ⟨here, others⟩ := List.forall_mem_cons.mp isName
    have total : off + (gap ++ (bytes ++ rest)).length = off + gap.length + bytes.length + rest.length := by
      simp only [List.length_append]
      omega
    have lies : (ofLexeme (.token t)).Lies R file off (off + gap.length + bytes.length) := by
      obtain ⟨kind, _, text, payload⟩ := t
      cases span
      refine ⟨rfl, Nat.le_add_right .., Nat.le_refl _, ?_, Nat.le_add_right ..⟩
      by_cases isIdent : kind = .ident
      · simpa [Lexeme.kind, Lexeme.text, Lexeme.span, Lexeme.toToken, isIdent, isThere] using here isIdent
      · simp [Lexeme.kind, Lexeme.toToken, isIdent, isThere]
    rw [total]
    exact .cons lies (ih others)

/-- Each of them tells the bytes of its span. -/
theorem MakeUp.tells {file off : Nat} {afterBreak : Bool} {source before : Bytes} {ts : List Token}
    (made : MakeUp file afterBreak off source ts) (length : before.length = off) :
    ∀ t ∈ ts, t.Tells (bytesOf (before ++ source) t.span) := by
  induction made generalizing before with
  | done => exact List.forall_mem_nil _
  | @token afterBreak off gap bytes rest t ts apart span tells more ih =>
    have shape : before ++ (gap ++ (bytes ++ rest)) = before ++ gap ++ bytes ++ rest := by simp only [List.append_assoc]
    have slice : bytesOf (before ++ (gap ++ (bytes ++ rest))) t.span = bytes := by
      rw [bytesOf, span, shape, List.take_left' (by simp [length]; omega), List.drop_left' (by simp [length])]
    refine List.forall_mem_cons.mpr ⟨by rwa [slice], ?_⟩
    rw [shape]
    exact ih (by simp [length]; omega)

/-- An identifier token of the source has the name and the span, and the name is the normal form of just the bytes there. -/
def IsIdentifier (file : Nat) (source : Bytes) (name : String) (span : Span) : Prop :=
  ∃ t, .token t ∈ lexemes file source ∧ t.kind = .ident ∧ t.text = name ∧ t.span = span ∧
    Text.nfc (Text.lossy (bytesOf source span)) = name

theorem Grammar.Source.tokens {ls : List Lexeme} {tree : File} (derived : Source true ls tree) :
    ∀ l ∈ ls, l.token?.isSome = true := by
  have isToken {l : Lexeme} (known : l.kind ≠ .invalid) : l.token?.isSome = true := by
    cases l with
    | token => rfl
    | error => exact absurd rfl known
  cases derived with
  | mk inner ends =>
    refine List.forall_mem_append.mpr ⟨fun l member => isToken (inner.proper l member).2, ?_⟩
    exact List.forall_mem_singleton.mpr (isToken (by rw [ends]; exact fun same => by cases same))

theorem Grammar.Source.lies {R : String → Span → Prop} {file first last : Nat} {ls : List Lexeme} {tree : File}
    (derived : Source true ls tree) (row : InRow R file first last (ls.map ofLexeme)) : tree.spanTree.Lies R file first last := by
  cases derived with
  | @mk ts is stop inner ends =>
    cases ts with
    | nil =>
      obtain ⟨isFile, start, forward, below⟩ := row.1.bounds
      have nothing : InRow R file stop.span.start stop.span.stop (is.map Item.spanTree) := inner.lies forward
      have span : File.spanTree ⟨(((([] : List Lexeme) ++ [stop]).head?.map Lexeme.span).getD {}).cover stop.span, is⟩ =
          .node (.node .file) stop.span (is.map Item.spanTree) := congrArg (SpanTree.node _ · _) stop.span.cover_self
      rw [span]
      exact ⟨isFile, start, below, trivial, nothing⟩
    | cons l ts =>
      rw [List.map_append, List.map_cons] at row
      obtain ⟨middle, ⟨head, before⟩, last, -⟩ := row.cut
      have items := inner.lies (.cons head.here before)
      exact .spanning head last (items.mono (Nat.le_refl _) (last.bounds.2.1.trans last.bounds.2.2.1)) trivial

/-- The spans of a file that parses nest. The walk over it finds no fault; each node lies in the source, and its parts lie
    in it one behind another, down to the names, which have the spans of their tokens. -/
theorem span_nesting {file : Nat} {source : Bytes} {cancelled : Bool} {tree : File}
    (parsed : parse (lexemes file source) cancelled = .ok tree) :
    tree.spanFault file source.length = some none ∧ tree.spanTree.walk = tree.walk ∧
      tree.spanTree.Lies (IsIdentifier file source) file 0 source.length := by
  have derived := source_of_parse parsed
  have run : Lexer.Run file 0 ⟨0, source⟩ (lexemes file source) := Lexer.lexemesFrom_run file (Nat.lt_succ_self _)
  have made := run.makeUp derived.tokens
  have isToken {t : Token} (member : t ∈ Lexer.tokens (lexemes file source)) : .token t ∈ lexemes file source := by
    rw [Lexer.tokens_of_clean derived.tokens]
    exact List.mem_map_of_mem member
  have names : ∀ t ∈ Lexer.tokens (lexemes file source), t.kind = .ident → IsIdentifier file source t.text t.span := by
    intro t member isName
    have tells := MakeUp.tells made List.length_nil t member
    rw [Token.Tells, isName] at tells
    exact ⟨t, isToken member, isName, rfl, rfl, tells.symm⟩
  have row : InRow (IsIdentifier file source) file 0 source.length ((lexemes file source).map ofLexeme) := by
    have inOrder := made.row names
    rw [Nat.zero_add] at inOrder
    rw [Lexer.tokens_of_clean derived.tokens, List.map_map]
    exact inOrder
  have lies := derived.lies row
  refine ⟨?_, tree.walk_eq, lies⟩
  have visits := lies.here.visits
  rw [tree.walk_eq] at visits
  exact spanFault_none visits lies.1 lies.2.2.1

/-- Blank lines around the declarations, a chain of prefixes, an indented branch and one on the line. -/
def spread : Bytes :=
  utf8 "\n\ntype P { x: i8 }\nfun f(p: P) -> i8:\n    if --p.x < 0:\n        return P { x: 1 }.x\n    else: return f(p)\n\n"

theorem span_nesting_spread : ∃ tree, parse (lexemes 0 spread) = .ok tree ∧
    tree.spanFault 0 spread.length = some none ∧ tree.spanTree.walk = tree.walk ∧
      tree.spanTree.Lies (IsIdentifier 0 spread) 0 0 spread.length := by
  have run : (parse (lexemes 0 spread)).toOption.isSome = true := by
    rw [spread, utf8_ofList]
    decide +kernel
  cases parsed : parse (lexemes 0 spread) with
  | ok tree => exact ⟨tree, rfl, span_nesting parsed⟩
  | error e =>
    rw [parsed] at run
    cases run

end PineLang
