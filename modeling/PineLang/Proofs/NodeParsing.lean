import PineLang.Proofs.Complete
import PineLang.Proofs.NodeWalks

/-!
Parsing into a builder, up to expressions. Reading into a builder goes like reading into a tree, production by production
(`NodeParser.Mirrors`): both take the same lexemes and stop with the same faults, and what is made stands in the builder for
the tree that is read and stays there, whatever is made later (`Builder.StandsExpr`, `Builder.StandsStmt`). Every
production finds the nodes that it holds loose and leaves one loose node in their place (`NodeParser.exprMirrors`).
-/
namespace PineLang

/-! ## Growing builders -/

namespace Pool

variable {κ : Type} {Data : κ → Type} {p : Pool κ Data}

theorem find_beyond (p : Pool κ Data) : p.find (p.heads.size + 1) = .missing := by
  have none : p.heads.get? (p.heads.size + 1) = none := by simp [Arena.get?, Arena.size]
  rw [find, none]

/-- A node that is there stays as it is when another is made. -/
theorem find_make_old [DecidableEq κ] {plain : κ → Prop} (whole : p.Whole plain) (s : Span) {k : κ} (x : Data k) {id : Nat}
    (there : p.find id ≠ .missing) : (p.make s x).2.find id = p.find id := by
  rw [find_make whole, if_neg]
  rintro rfl
  exact there (find_beyond p)

theorem find_bare_old (s : Span) (k : κ) {id : Nat} (there : p.find id ≠ .missing) :
    (p.bare s k).2.find id = p.find id := by
  rw [find_bare, if_neg]
  rintro rfl
  exact there (find_beyond p)

end Pool

namespace Builder

/-- A builder with all that another one has, and perhaps more. -/
structure Grows (b b' : Builder) : Prop where
  exprs : ∀ id, b.exprs.find id ≠ .missing → b'.exprs.find id = b.exprs.find id
  stmts : ∀ id, b.stmts.find id ≠ .missing → b'.stmts.find id = b.stmts.find id
  items : ∀ id, b.items.find id ≠ .missing → b'.items.find id = b.items.find id
  names : ∀ id text, b.strings.lookup id = some text → b'.strings.lookup id = some text
  params : ∀ r ps, b.paramRange? r = some ps → b'.paramRange? r = some ps

/-- A builder with more names, expressions and statements. -/
structure Within (b b' : Builder) : Prop extends Grows b b' where
  sameItems : b'.items = b.items
  sameParams : b'.params = b.params
  sameFiles : b'.files = b.files

variable {b b' b'' : Builder} {loose rest : List NodeId}

theorem Grows.refl (b : Builder) : b.Grows b :=
  ⟨fun _ _ => rfl, fun _ _ => rfl, fun _ _ => rfl, fun _ _ => id, fun _ _ => id⟩

theorem Grows.trans (first : b.Grows b') (second : b'.Grows b'') : b.Grows b'' where
  exprs id there := by rw [second.exprs id (by rwa [first.exprs id there]), first.exprs id there]
  stmts id there := by rw [second.stmts id (by rwa [first.stmts id there]), first.stmts id there]
  items id there := by rw [second.items id (by rwa [first.items id there]), first.items id there]
  names id text known := second.names id text (first.names id text known)
  params r ps known := second.params r ps (first.params r ps known)

theorem Within.refl (b : Builder) : b.Within b := ⟨.refl b, rfl, rfl, rfl⟩

theorem Within.trans (first : b.Within b') (second : b'.Within b'') : b.Within b'' :=
  ⟨first.toGrows.trans second.toGrows, second.sameItems.trans first.sameItems, second.sameParams.trans first.sameParams,
    second.sameFiles.trans first.sameFiles⟩

theorem within_expr (sound : b.Sound) (s : Span) {k : ExprKind} (x : ExprData k) : b.Within (b.newExpr s x).2 where
  exprs _ there := Pool.find_make_old sound.exprs s x there
  stmts _ _ := rfl
  items _ _ := rfl
  names _ _ := id
  params _ _ := id
  sameItems := rfl
  sameParams := rfl
  sameFiles := rfl

theorem within_stmt (sound : b.Sound) (s : Span) {k : StmtKind} (x : StmtData k) : b.Within (b.newStmt s x).2 where
  exprs _ _ := rfl
  stmts _ there := Pool.find_make_old sound.stmts s x there
  items _ _ := rfl
  names _ _ := id
  params _ _ := id
  sameItems := rfl
  sameParams := rfl
  sameFiles := rfl

theorem within_bare (b : Builder) (s : Span) (k : StmtKind) : b.Within (b.bareStmt s k).2 where
  exprs _ _ := rfl
  stmts _ there := Pool.find_bare_old s k there
  items _ _ := rfl
  names _ _ := id
  params _ _ := id
  sameItems := rfl
  sameParams := rfl
  sameFiles := rfl

theorem grows_item (sound : b.Sound) (ps : List ParamNode) (s : Span) {k : ItemKind} (x : ItemData k) :
    b.Grows (b.withItem ps s x) := by
  have unchanged : (b.withItem ps s x).exprs = b.exprs ∧ (b.withItem ps s x).stmts = b.stmts ∧
      (b.withItem ps s x).strings = b.strings := by
    unfold withItem
    rw [allocParams_rest]
    exact ⟨rfl, rfl, rfl⟩
  refine ⟨?_, ?_, ?_, ?_, fun r qs known => paramRange?_more known ps⟩
  · rw [unchanged.1]
    exact fun _ _ => rfl
  · rw [unchanged.2.1]
    exact fun _ _ => rfl
  · intro id there
    show ((b.allocParams ps).2.items.make s x).2.find id = _
    rw [items_allocParams]
    exact Pool.find_make_old sound.items s x there
  · rw [unchanged.2.2]
    exact fun _ _ => id

/-- Files are no matter of what they are made of. -/
theorem grows_files (b : Builder) (files : Arena FileNode) : b.Grows { b with files } :=
  ⟨fun _ _ => rfl, fun _ _ => rfl, fun _ _ => rfl, fun _ _ => id, fun _ _ => id⟩

/-! ## Names -/

end Builder

theorem Interner.lookup_intern (t : Interner) (text : String) : (t.intern text).2.lookup (t.intern text).1 = some text := by
  unfold intern find? lookup
  cases found : t.strings.idxOf? text with
  | some id =>
    obtain ⟨inside, same, _⟩ := List.idxOf?_eq_some_iff.mp found
    simp only
    rw [List.getElem?_eq_getElem inside, same]
  | none => simp

theorem Interner.lookup_more {t : Interner} {id : Nat} {known : String} (found : t.lookup id = some known) (text : String) :
    (t.intern text).2.lookup id = some known := by
  unfold intern
  split
  · exact found
  · unfold lookup at found ⊢
    rw [List.getElem?_append_left (List.getElem?_eq_some_iff.mp found).1]
    exact found

namespace Builder

variable {b b' b'' : Builder} {loose rest : List NodeId}

/-- A number stands for a name, and goes on to. -/
def Named (b : Builder) (id : Nat) (text : String) : Prop := b.strings.lookup id = some text

theorem Named.mono {id : Nat} {text : String} (named : b.Named id text) (grows : b.Grows b') : b'.Named id text :=
  grows.names id text named

theorem Named.name {id : Nat} {text : String} (named : b.Named id text) : b.name id = text := by
  unfold Builder.name
  rw [show b.strings.lookup id = some text from named]
  rfl

theorem within_intern (b : Builder) (text : String) : b.Within (b.intern text).2 where
  exprs _ _ := rfl
  stmts _ _ := rfl
  items _ _ := rfl
  names _ _ known := Interner.lookup_more known text
  params _ _ := id
  sameItems := rfl
  sameParams := rfl
  sameFiles := rfl

theorem named_intern (b : Builder) (text : String) : (b.intern text).2.Named (b.intern text).1 text :=
  Interner.lookup_intern b.strings text

theorem Tidy.intern (tidy : b.Tidy loose) (text : String) : (b.intern text).2.Tidy loose :=
  ⟨⟨tidy.sound.exprs, tidy.sound.stmts, tidy.sound.items, tidy.sound.params⟩, tidy.once, tidy.exprs, tidy.stmts⟩

/-! ## What stands for a tree -/

/-- The node stands for the expression, and goes on to. -/
structure StandsExpr (b : Builder) (id : Nat) (x : Expr) : Prop where
  there : b.exprs.find id ≠ .missing
  span : b.exprSpan id = x.span
  target : b.isTarget id = Parser.isTarget x
  reads : ∀ later, b.Grows later → later.Acyclic → later.expr id = x

/-- The node stands for the statement, and goes on to. -/
structure StandsStmt (b : Builder) (id : Nat) (x : Stmt) : Prop where
  there : b.stmts.find id ≠ .missing
  span : b.stmtSpan id = x.span
  reads : ∀ later, b.Grows later → later.Acyclic → later.stmt id = x

theorem StandsExpr.mono {id : Nat} {x : Expr} (stands : b.StandsExpr id x) (grows : b.Grows b') : b'.StandsExpr id x := by
  have same := grows.exprs id stands.there
  refine ⟨by rw [same]; exact stands.there, ?_, ?_, fun later more => stands.reads later (grows.trans more)⟩
  · rw [← stands.span, exprSpan, exprSpan, same]
  · rw [← stands.target, isTarget, isTarget, same]

theorem StandsStmt.mono {id : Nat} {x : Stmt} (stands : b.StandsStmt id x) (grows : b.Grows b') : b'.StandsStmt id x := by
  have same := grows.stmts id stands.there
  refine ⟨by rw [same]; exact stands.there, ?_, fun later more => stands.reads later (grows.trans more)⟩
  rw [← stands.span, stmtSpan, stmtSpan, same]

theorem find_newExpr (sound : b.Sound) (s : Span) {k : ExprKind} (x : ExprData k) :
    (b.newExpr s x).2.exprs.find (b.newExpr s x).1 = .node s x :=
  (Pool.find_make sound.exprs s x _).trans (if_pos rfl)

theorem find_newStmt (sound : b.Sound) (s : Span) {k : StmtKind} (x : StmtData k) :
    (b.newStmt s x).2.stmts.find (b.newStmt s x).1 = .node s x :=
  (Pool.find_make sound.stmts s x _).trans (if_pos rfl)

/-- What an expression is read as has its place, and is a target if its kind is that of one. -/
theorem exprStep_node (sub : Nat → Expr) {id : Nat} {s : Span} {k : ExprKind} {x : ExprData k}
    (found : b.exprs.find id = .node s x) :
    (b.exprStep sub id).span = s ∧ ((k = .ident ∨ k = .member) ↔ Parser.isTarget (b.exprStep sub id) = true) := by
  rw [exprStep, found]
  cases x <;> simp [Expr.span, Parser.isTarget]

/-- What a statement is read as has its place. -/
theorem stmtStep_span (sub : Nat → Stmt) {id : Nat} {s : Span} {k : StmtKind} {x : StmtData k}
    (found : b.stmts.find id = .node s x) : (b.stmtStep sub id).span = s := by
  rw [stmtStep, found]
  cases x <;> rfl

/-- A new expression stands for what its content says. -/
theorem stands_newExpr (sound : b.Sound) {s : Span} {k : ExprKind} (x : ExprData k)
    (acyclic : (b.newExpr s x).2.Acyclic) {tree : Expr}
    (reads : ∀ later, (b.newExpr s x).2.Grows later → later.Acyclic →
      later.exprs.find (b.newExpr s x).1 = .node s x → later.exprStep later.expr (b.newExpr s x).1 = tree) :
    (b.newExpr s x).2.StandsExpr (b.newExpr s x).1 tree := by
  have found := find_newExpr sound s x
  obtain ⟨place, target⟩ := exprStep_node (b.newExpr s x).2.expr found
  rw [reads _ (.refl _) acyclic found] at place target
  refine ⟨by rw [found]; exact nofun, by rw [exprSpan, found, place]; rfl, ?_, ?_⟩
  · rw [isTarget, found, Bool.eq_iff_iff, ← target]
    cases k <;> simp [Pool.Found.kind?]
  · intro later grows acyclic
    rw [expr_eq acyclic]
    exact reads later grows acyclic (by rw [grows.exprs _ (by rw [found]; exact nofun), found])

/-- A new statement stands for what its content says. -/
theorem stands_newStmt (sound : b.Sound) {s : Span} {k : StmtKind} (x : StmtData k)
    (acyclic : (b.newStmt s x).2.Acyclic) {tree : Stmt}
    (reads : ∀ later, (b.newStmt s x).2.Grows later → later.Acyclic →
      later.stmts.find (b.newStmt s x).1 = .node s x → later.stmtStep later.stmt (b.newStmt s x).1 = tree) :
    (b.newStmt s x).2.StandsStmt (b.newStmt s x).1 tree := by
  have found := find_newStmt sound s x
  have place := stmtStep_span (b.newStmt s x).2.stmt found
  rw [reads _ (.refl _) acyclic found] at place
  refine ⟨by rw [found]; exact nofun, by rw [stmtSpan, found, place]; rfl, ?_⟩
  intro later grows acyclic
  rw [stmt_eq acyclic]
  exact reads later grows acyclic (by rw [grows.stmts _ (by rw [found]; exact nofun), found])

end Builder

/-! ## Parsers side by side -/

namespace NodeParser

/-- Reading into a builder goes like reading into a tree: with the same fault, or with the same lexemes left and results
    that are related. -/
def Mirrors {α β : Type} (q : NodeParser β) (p : Parser α) (b : Builder) (ls : List Lexeme)
    (related : β → Builder → α → Prop) : Prop :=
  match p ls with
  | .error e => q b ls = .error e
  | .ok (x, rest) => ∃ y b', q b ls = .ok ((y, b'), rest) ∧ related y b' x

namespace Mirrors

variable {α β γ δ : Type} {q : NodeParser β} {p : Parser α} {g : β → NodeParser δ} {f : α → Parser γ} {b : Builder}
  {ls : List Lexeme} {R : β → Builder → α → Prop} {S : δ → Builder → γ → Prop}

theorem bind_run {y : β} {b' : Builder} {rest : List Lexeme} (run : q b ls = .ok ((y, b'), rest)) :
    (q >>= g) b ls = g y b' rest :=
  Parser.bind_of_ok run fun r => g r.1 r.2

theorem bind (first : Mirrors q p b ls R)
    (next : ∀ y b' x rest, p ls = .ok (x, rest) → R y b' x → Mirrors (g y) (f x) b' rest S) :
    Mirrors (q >>= g) (p >>= f) b ls S := by
  unfold Mirrors at first
  cases read : p ls with
  | error e =>
    rw [read] at first
    have stopped : (p >>= f) ls = .error e := by simp only [Bind.bind, read]
    have stopped' : (q >>= g) b ls = .error e := by simp only [Bind.bind, show q b ls = .error e from first]
    unfold Mirrors
    rw [stopped]
    exact stopped'
  | ok r =>
    obtain ⟨x, rest⟩ := r
    rw [read] at first
    obtain ⟨y, b', run, related⟩ := first
    have later := next y b' x rest read related
    unfold Mirrors at later ⊢
    rw [Parser.bind_of_ok read, bind_run run]
    exact later

/-- A step that takes no lexemes and has no counterpart. -/
theorem step {p : Parser γ} {y : β} {b' : Builder} (run : q b ls = .ok ((y, b'), ls)) (next : Mirrors (g y) p b' ls S) :
    Mirrors (q >>= g) p b ls S := by
  unfold Mirrors at next ⊢
  rwa [bind_run run]

theorem put {p : Parser γ} {op : Builder → β × Builder} (next : Mirrors (g (op b).1) p (op b).2 ls S) :
    Mirrors (NodeParser.put op >>= g) p b ls S :=
  step rfl next

theorem look {p : Parser γ} {view : Builder → β} (next : Mirrors (g (view b)) p b ls S) :
    Mirrors (NodeParser.look view >>= g) p b ls S :=
  step rfl next

theorem pure {y : β} {x : α} (related : R y b x) : Mirrors (pure y) (pure x) b ls R := ⟨y, b, rfl, related⟩

/-- The last step makes the result. -/
theorem made {op : Builder → β × Builder} {x : α} (related : R (op b).1 (op b).2 x) :
    Mirrors (NodeParser.put op) (Pure.pure x) b ls R := ⟨_, _, rfl, related⟩

theorem lift {g : α → NodeParser δ} (next : ∀ x rest, p ls = .ok (x, rest) → Mirrors (g x) (f x) b rest S) :
    Mirrors (liftM p >>= g) (p >>= f) b ls S := by
  refine bind (R := fun y b' x => y = x ∧ b' = b) ?_ ?_
  · unfold Mirrors
    cases read : p ls with
    | error e => exact (by simp only [liftM, monadLift, MonadLift.monadLift, Bind.bind, read])
    | ok r =>
      obtain ⟨x, rest⟩ := r
      exact ⟨x, b, Parser.bind_of_ok read _, rfl, rfl⟩
  · rintro y _ x rest read ⟨rfl, rfl⟩
    exact next y rest read

theorem kind {g : Kind → NodeParser δ} {f : Kind → Parser γ} (next : Mirrors (g (Parser.look ls)) (f (Parser.look ls)) b ls S) :
    Mirrors (liftM Parser.kind >>= g) (Parser.kind >>= f) b ls S := by
  refine lift fun x rest read => ?_
  have here : Parser.kind ls = .ok (Parser.look ls, ls) := by cases ls <;> rfl
  rw [here] at read
  cases read
  exact next

theorem isAt {k : Kind} {g : Bool → NodeParser δ} {f : Bool → Parser γ} (yes : Mirrors (g true) (f true) b ls S)
    (no : Mirrors (g false) (f false) b ls S) : Mirrors (liftM (Parser.isAt k) >>= g) (Parser.isAt k >>= f) b ls S := by
  refine lift fun x rest read => ?_
  have here : Parser.isAt k ls = .ok (Parser.look ls == k, ls) := by cases ls <;> rfl
  rw [here] at read
  cases read
  cases Parser.look ls == k with
  | true => exact yes
  | false => exact no

theorem current {g : Token → NodeParser δ} {f : Token → Parser γ} (next : ∀ t, Mirrors (g t) (f t) b ls S) :
    Mirrors (liftM Parser.current >>= g) (Parser.current >>= f) b ls S := by
  refine lift fun x rest read => ?_
  cases read
  exact next _

/-- What is read is put into a result in the tree only. -/
theorem answered {f : α → γ} {S : β → Builder → γ → Prop} (first : Mirrors q p b ls R)
    (next : ∀ y b' x, R y b' x → S y b' (f x)) : Mirrors q (p >>= fun x => Pure.pure (f x)) b ls S := by
  unfold Mirrors at first ⊢
  cases read : p ls with
  | error e =>
    rw [read] at first
    simp only [Bind.bind, read]
    exact first
  | ok r =>
    obtain ⟨x, rest⟩ := r
    rw [read] at first
    obtain ⟨y, b', run, related⟩ := first
    rw [Parser.bind_of_ok read]
    exact ⟨y, b', run, next y b' x related⟩

/-- What is read goes through further steps that take no lexemes. -/
theorem lastly {g : α → NodeParser δ} {R : δ → Builder → α → Prop}
    (next : ∀ x rest, p ls = .ok (x, rest) → ∃ y b', g x b rest = .ok ((y, b'), rest) ∧ R y b' x) :
    Mirrors (liftM p >>= g) p b ls R := by
  unfold Mirrors
  cases read : p ls with
  | error e => simp only [liftM, monadLift, MonadLift.monadLift, Bind.bind, read]
  | ok r =>
    obtain ⟨x, rest⟩ := r
    obtain ⟨y, b', run, related⟩ := next x rest read
    have lifted : (liftM p : NodeParser α) b ls = .ok ((x, b), rest) := Parser.bind_of_ok read _
    exact ⟨y, b', (bind_run lifted).trans run, related⟩

theorem fail (e : SyntaxFault) : Mirrors (liftM (Parser.fail e : Parser β)) (Parser.fail e : Parser α) b ls R := rfl

theorem unexpected (words : List String) :
    Mirrors (liftM (Parser.unexpected words : Parser β)) (Parser.unexpected words : Parser α) b ls R := by
  have stops : ∃ e, ∀ {ε : Type}, (Parser.unexpected words : Parser ε) ls = .error e := by
    unfold Parser.unexpected
    cases ls with
    | nil => exact ⟨_, rfl⟩
    | cons l ls =>
      cases l with
      | error e earlier => exact ⟨_, rfl⟩
      | token t => exact ⟨if t.kind == .eof then _ else _, by intro ε; simp only; split <;> rfl⟩
  obtain ⟨e, stops⟩ := stops
  unfold Mirrors
  rw [stops]
  simp only [liftM, monadLift, MonadLift.monadLift, Bind.bind, stops]

end Mirrors

/-! ## Names and types -/

/-- At most names are added. -/
structure Quiet (b b' : Builder) : Prop where
  within : b.Within b'
  tidy : ∀ {loose : List NodeId}, b.Tidy loose → b'.Tidy loose

variable {b b' : Builder} {ls : List Lexeme} {rest : List NodeId}

theorem Quiet.refl (b : Builder) : Quiet b b := ⟨.refl b, id⟩

theorem Quiet.intern (b : Builder) (text : String) : Quiet b (b.intern text).2 :=
  ⟨b.within_intern text, fun tidy => tidy.intern text⟩

theorem Quiet.trans {b b' b'' : Builder} (first : Quiet b b') (second : Quiet b' b'') : Quiet b b'' :=
  ⟨first.within.trans second.within, fun tidy => second.tidy (first.tidy tidy)⟩

/-- What is read for a name. -/
structure MadeName (b : Builder) (y : Nat × Span) (b' : Builder) (x : String × Span) : Prop where
  quiet : Quiet b b'
  named : b'.Named y.1 x.1
  span : y.2 = x.2

/-- What is read for a type. -/
structure MadeType (b : Builder) (y : TypeNode) (b' : Builder) (x : TypeRef) : Prop where
  quiet : Quiet b b'
  reads : ∀ later, b'.Grows later → later.typeRef y = x

/-- What is read for a parameter or a field. -/
structure MadeParam (b : Builder) (y : ParamNode) (b' : Builder) (x : Param) : Prop where
  quiet : Quiet b b'
  reads : ∀ later, b'.Grows later → later.param y = x

theorem name_mirrors : Mirrors name Parser.name b ls (MadeName b) := by
  exact .lastly fun x rest _ => ⟨_, _, rfl, .intern b x.1, b.named_intern x.1, rfl⟩

theorem type_mirrors : Mirrors type Parser.type b ls (MadeType b) := by
  refine .lastly fun ref rest read => ?_
  obtain ⟨l, _, isType⟩ := Parser.type_ok_iff.mp read
  have known := Grammar.annotation_known isType
  obtain ⟨ty, span⟩ := ref
  cases ty with
  | struct text =>
    refine ⟨_, _, rfl, .intern b text, ?_⟩
    intro later grows
    have named := ((b.named_intern text).mono grows).name
    exact congrArg (TypeRef.mk · span) (congrArg Ty.struct named)
  | other k => exact known.elim
  | _ => exact ⟨_, _, rfl, .refl b, fun _ _ => rfl⟩

theorem field_mirrors : Mirrors field Parser.field b ls (MadeParam b) := by
  unfold NodeParser.field Parser.field
  refine name_mirrors.bind ?_
  rintro ⟨n, span⟩ b₁ ⟨text, span'⟩ rest - ⟨quiet, named, rfl⟩
  refine .lift fun _ rest _ => type_mirrors.bind ?_
  rintro ty b₂ ref rest - ⟨quiet', reads⟩
  have place : ty.span = ref.span := by rw [← reads b₂ (.refl b₂)]; rfl
  refine .pure ⟨quiet.trans quiet', ?_⟩
  intro later grows
  have named := (named.mono (quiet'.within.toGrows.trans grows)).name
  simp only [Builder.param, named, reads later grows, place]

/-! ## Expressions -/

/-- What is read for an expression: a loose node that stands for it. -/
structure MadeExpr (b : Builder) (rest : List NodeId) (id : Nat) (b' : Builder) (x : Expr) : Prop where
  within : b.Within b'
  tidy : b'.Tidy (.expr id :: rest)
  stands : b'.StandsExpr id x

/-- What is read for expressions. -/
structure MadeExprs (b : Builder) (rest : List NodeId) (ids : List Nat) (b' : Builder) (xs : List Expr) : Prop where
  within : b.Within b'
  tidy : b'.Tidy (ids.map .expr ++ rest)
  stand : List.Forall₂ b'.StandsExpr ids xs

/-- The field stands for a field of a literal. -/
structure StandsInit (b : Builder) (f : FieldNode) (x : FieldInit) : Prop where
  named : b.Named f.name x.name
  span : f.span = x.span
  value : b.StandsExpr f.value x.value

/-- What is read for the fields of a literal. -/
structure MadeInits (b : Builder) (rest : List NodeId) (fs : List FieldNode) (b' : Builder) (xs : List FieldInit) :
    Prop where
  within : b.Within b'
  tidy : b'.Tidy ((fs.map (·.value)).map .expr ++ rest)
  stand : List.Forall₂ (StandsInit b') fs xs

theorem StandsInit.mono {f : FieldNode} {x : FieldInit} (stands : StandsInit b f x) (grows : b.Grows b') :
    StandsInit b' f x :=
  ⟨stands.named.mono grows, stands.span, stands.value.mono grows⟩

theorem map_eq {α β : Type} {R : α → β → Prop} {f : α → β} (each : ∀ x y, R x y → f x = y) {xs : List α} {ys : List β}
    (all : List.Forall₂ R xs ys) : xs.map f = ys := by
  induction all with
  | nil => rfl
  | cons first _ ih => rw [List.map_cons, each _ _ first, ih]

/-- A new node takes the place of its parts and stands for the tree that is made of theirs. -/
theorem madeExpr {b₀ : Builder} {loose : List NodeId} (within : b₀.Within b) (tidy : b.Tidy loose) {s : Span}
    {k : ExprKind} (x : ExprData k) (parts : loose.Perm (x.parts.map .expr ++ rest)) {tree : Expr}
    (reads : ∀ later, b.Grows later → later.Acyclic → later.exprs.find (b.newExpr s x).1 = .node s x →
      later.exprStep later.expr (b.newExpr s x).1 = tree) :
    MadeExpr b₀ rest (b.newExpr s x).1 (b.newExpr s x).2 tree :=
  have more := Builder.within_expr tidy.sound s x
  have tidy' := tidy.expr s x parts
  ⟨within.trans more, tidy',
    Builder.stands_newExpr tidy.sound x tidy'.acyclic fun later grows => reads later (more.toGrows.trans grows)⟩

theorem ident_made (tidy : b.Tidy rest) (span : Span) (text : String) :
    Mirrors (ident span text) (pure (.ident span text)) b ls (MadeExpr b rest) := by
  unfold NodeParser.ident
  refine .put (.made ?_)
  refine madeExpr (b.within_intern text) (tidy.intern text) (.ident _) (.refl _) ?_
  intro later grows _ found
  rw [Builder.exprStep, found]
  exact congrArg (Expr.ident span) ((b.named_intern text).mono grows).name

theorem literal_made (tidy : b.Tidy rest) (span : Span) {value : Literal} (known : value.node.literal = value) :
    Mirrors (literal span value) (pure (.lit span value)) b ls (MadeExpr b rest) := by
  refine .made ?_
  refine madeExpr (.refl b) tidy (.lit value.node) (.refl _) ?_
  intro later _ _ found
  rw [Builder.exprStep, found]
  exact congrArg (Expr.lit span) known

theorem join_mirrors {b₀ : Builder} (op : Joiner) (known : ∀ o, op = .op o → BinaryOp.ofNumber o.number = o) {l r : Nat}
    {left right : Expr} (within : b₀.Within b) (tidy : b.Tidy (.expr r :: .expr l :: rest)) (first : b.StandsExpr l left)
    (second : b.StandsExpr r right) :
    Mirrors (join op l r) (Parser.join op left right) b ls (MadeExpr b₀ rest) := by
  unfold NodeParser.join Parser.join
  refine .look (.look ?_)
  rw [first.span, second.span]
  have parts : [NodeId.expr r, .expr l].Perm [.expr l, .expr r] := .swap ..
  cases op with
  | op o =>
    refine .made ?_
    refine madeExpr within tidy (.binary o.number l r) (parts.append_right rest) ?_
    intro later grows acyclic found
    rw [Builder.exprStep, found]
    simp only [known o rfl, first.reads later grows acyclic, second.reads later grows acyclic]
  | assign =>
    refine .look ?_
    rw [first.target]
    cases Parser.isTarget left with
    | false => exact .fail _
    | true =>
      refine .made ?_
      refine madeExpr within tidy (.assign l r) (parts.append_right rest) ?_
      intro later grows acyclic found
      rw [Builder.exprStep, found]
      simp only [first.reads later grows acyclic, second.reads later grows acyclic]

/-- The productions of expressions. -/
structure ExprMirrors (n : Nat) : Prop where
  expr : ∀ {b : Builder} {rest : List NodeId} {ls : List Lexeme} {least : Nat}, b.Tidy rest →
    Mirrors (expr n least) (Parser.expr n least) b ls (MadeExpr b rest)
  tail : ∀ {b₀ b : Builder} {rest : List NodeId} {ls : List Lexeme} {least l : Nat} {left : Expr},
    MadeExpr b₀ rest l b left → Mirrors (exprTail n least l) (Parser.exprTail n least left) b ls (MadeExpr b₀ rest)
  unary : ∀ {b : Builder} {rest : List NodeId} {ls : List Lexeme}, b.Tidy rest →
    Mirrors (unary n) (Parser.unary n) b ls (MadeExpr b rest)
  postfixes : ∀ {b₀ b : Builder} {rest : List NodeId} {ls : List Lexeme} {l : Nat} {target : Expr},
    MadeExpr b₀ rest l b target → Mirrors (postfixes n l) (Parser.postfixes n target) b ls (MadeExpr b₀ rest)
  arguments : ∀ {b : Builder} {rest : List NodeId} {ls : List Lexeme}, b.Tidy rest →
    Mirrors (arguments n) (Parser.arguments n) b ls (MadeExprs b rest)
  inits : ∀ {b : Builder} {rest : List NodeId} {ls : List Lexeme}, b.Tidy rest →
    Mirrors (fieldInits n) (Parser.fieldInits n) b ls (MadeInits b rest)
  primary : ∀ {b : Builder} {rest : List NodeId} {ls : List Lexeme}, b.Tidy rest →
    Mirrors (primary n) (Parser.primary n) b ls (MadeExpr b rest)

namespace ExprMirrors

variable {n : Nat}

private theorem expr_succ (ih : ExprMirrors n) {least : Nat} (tidy : b.Tidy rest) :
    Mirrors (NodeParser.expr (n + 1) least) (Parser.expr (n + 1) least) b ls (MadeExpr b rest) := by
  rw [NodeParser.expr, Parser.expr]
  exact (ih.unary tidy).bind fun _ _ _ _ _ made => ih.tail made

private theorem tail_succ (ih : ExprMirrors n) {b₀ : Builder} {least l : Nat} {left : Expr}
    (made : MadeExpr b₀ rest l b left) :
    Mirrors (NodeParser.exprTail (n + 1) least l) (Parser.exprTail (n + 1) least left) b ls (MadeExpr b₀ rest) := by
  rw [NodeParser.exprTail, Parser.exprTail]
  refine .kind ?_
  cases isOp : (Parser.look ls).joiner? with
  | none => exact .pure made
  | some op =>
    simp only
    split
    · exact .pure made
    · refine .lift fun _ rest' _ => ?_
      refine (ih.expr made.tidy).bind fun r b₁ right _ _ second => ?_
      have known : ∀ o, op = .op o → BinaryOp.ofNumber o.number = o := by
        rintro o rfl
        generalize Parser.look ls = k at isOp
        cases k <;> cases isOp <;> rfl
      refine (join_mirrors op known (made.within.trans second.within) second.tidy
        (made.stands.mono second.within.toGrows) second.stands).bind ?_
      exact fun _ _ _ _ _ both => ih.tail both

private theorem unary_succ (ih : ExprMirrors n) (tidy : b.Tidy rest) :
    Mirrors (NodeParser.unary (n + 1)) (Parser.unary (n + 1)) b ls (MadeExpr b rest) := by
  rw [NodeParser.unary, Parser.unary]
  refine .kind ?_
  cases isOp : (Parser.look ls).unary? with
  | none => exact (ih.primary tidy).bind fun _ _ _ _ _ made => ih.postfixes made
  | some op =>
    refine .lift fun t _ _ => (ih.unary tidy).bind fun l b₁ operand _ _ made => .look ?_
    rw [made.stands.span]
    have known : UnaryOp.ofNumber op.number = op := by
      generalize Parser.look ls = k at isOp
      cases k <;> cases isOp <;> rfl
    refine .made ?_
    refine madeExpr made.within made.tidy (.unary op.number l) (.refl _) ?_
    intro later grows acyclic found
    rw [Builder.exprStep, found]
    simp only [known, made.stands.reads later grows acyclic]

private theorem arguments_succ (ih : ExprMirrors n) (tidy : b.Tidy rest) :
    Mirrors (NodeParser.arguments (n + 1)) (Parser.arguments (n + 1)) b ls (MadeExprs b rest) := by
  rw [NodeParser.arguments, Parser.arguments]
  refine .isAt (.pure ⟨.refl b, tidy, .nil⟩) ?_
  refine (ih.expr tidy).bind fun id b₁ x _ _ made => .isAt ?_ ?_
  · refine .lift fun _ _ _ => (ih.arguments made.tidy).bind fun ids b₂ xs _ _ others => .pure ?_
    exact ⟨made.within.trans others.within, others.tidy.perm List.perm_middle,
      .cons (made.stands.mono others.within.toGrows) others.stand⟩
  · exact .pure ⟨made.within, made.tidy, .cons made.stands .nil⟩

private theorem inits_succ (ih : ExprMirrors n) (tidy : b.Tidy rest) :
    Mirrors (NodeParser.fieldInits (n + 1)) (Parser.fieldInits (n + 1)) b ls (MadeInits b rest) := by
  rw [NodeParser.fieldInits, Parser.fieldInits]
  refine .isAt (.pure ⟨.refl b, tidy, .nil⟩) ?_
  refine name_mirrors.bind ?_
  rintro ⟨f, span⟩ b₁ ⟨text, _⟩ _ - ⟨quiet, named, rfl⟩
  refine .lift fun _ _ _ => (ih.expr (quiet.tidy tidy)).bind fun id b₂ x _ _ made => .look ?_
  rw [made.stands.span]
  have within := quiet.within.trans made.within
  have first : StandsInit b₂ ⟨f, span.cover x.span, id⟩ (.mk text (span.cover x.span) x) :=
    ⟨named.mono made.within.toGrows, rfl, made.stands⟩
  refine .isAt ?_ ?_
  · refine .lift fun _ _ _ => (ih.inits made.tidy).bind fun fs b₃ xs _ _ others => .pure ?_
    exact ⟨within.trans others.within, others.tidy.perm List.perm_middle,
      .cons (first.mono others.within.toGrows) others.stand⟩
  · exact .pure ⟨within, made.tidy, .cons first .nil⟩

private theorem postfixes_succ (ih : ExprMirrors n) {b₀ : Builder} {l : Nat} {target : Expr}
    (made : MadeExpr b₀ rest l b target) :
    Mirrors (NodeParser.postfixes (n + 1) l) (Parser.postfixes (n + 1) target) b ls (MadeExpr b₀ rest) := by
  rw [NodeParser.postfixes, Parser.postfixes]
  refine .kind ?_
  generalize Parser.look ls = k
  split
  · refine .lift fun _ _ _ => (ih.arguments made.tidy).bind fun ids b₁ xs _ _ args => .lift fun close _ _ => .look ?_
    have callee := made.stands.mono args.within.toGrows
    rw [callee.span]
    refine .put (ih.postfixes ?_)
    refine madeExpr (made.within.trans args.within) args.tidy (.call l ids) List.perm_middle ?_
    intro later grows acyclic found
    rw [Builder.exprStep, found]
    simp only [callee.reads later grows acyclic]
    exact congrArg (Expr.call _ target) (map_eq (fun _ _ stands => stands.reads later grows acyclic) args.stand)
  · refine .lift fun _ _ _ => name_mirrors.bind ?_
    rintro ⟨f, span⟩ b₁ ⟨text, _⟩ _ - ⟨quiet, named, rfl⟩
    have held := made.stands.mono quiet.within.toGrows
    refine .look ?_
    rw [held.span]
    refine .put (ih.postfixes ?_)
    refine madeExpr (made.within.trans quiet.within) (quiet.tidy made.tidy) (.member l f span) (.refl _) ?_
    intro later grows acyclic found
    rw [Builder.exprStep, found]
    simp only [held.reads later grows acyclic, (named.mono grows).name]
  · try simp only
    exact .pure made

private theorem primary_succ (ih : ExprMirrors n) (tidy : b.Tidy rest) :
    Mirrors (NodeParser.primary (n + 1)) (Parser.primary (n + 1)) b ls (MadeExpr b rest) := by
  rw [NodeParser.primary, Parser.primary]
  refine .current fun t => ?_
  generalize t.kind = k
  split
  · refine .lift fun _ _ _ => ?_
    refine .isAt (.put (.lift fun _ _ _ => ?_)) (ident_made tidy t.span t.text)
    have quiet := Quiet.intern b t.text
    refine (ih.inits (quiet.tidy tidy)).bind fun fs b₁ xs _ _ made => .lift fun close _ _ => .made ?_
    refine madeExpr (quiet.within.trans made.within) made.tidy (.structLit _ t.span fs) (.refl _) ?_
    intro later grows acyclic found
    rw [Builder.exprStep, found]
    have named := ((b.named_intern t.text).mono (made.within.toGrows.trans grows)).name
    simp only [named]
    refine congrArg (Expr.structLit _ t.text t.span) (map_eq ?_ made.stand)
    rintro f ⟨text, span, x⟩ stands
    have name : later.name f.name = text := (stands.named.mono grows).name
    have span : f.span = span := stands.span
    rw [name, span, stands.value.reads later grows acyclic]
    rfl
  · exact .lift fun _ _ _ => ident_made tidy t.span "self"
  · exact .lift fun _ _ _ => literal_made tidy t.span rfl
  · exact .lift fun _ _ _ => literal_made tidy t.span rfl
  · exact .lift fun _ _ _ => literal_made tidy t.span rfl
  · exact .lift fun _ _ _ => literal_made tidy t.span rfl
  · exact .lift fun _ _ _ => literal_made tidy t.span rfl
  · exact .lift fun _ _ _ => literal_made tidy t.span rfl
  · refine .lift fun _ _ _ => (ih.expr tidy).bind fun id b₁ inner _ _ made => .lift fun close _ _ => .made ?_
    refine madeExpr made.within made.tidy (.group id) (.refl _) ?_
    intro later grows acyclic found
    rw [Builder.exprStep, found]
    simp only [made.stands.reads later grows acyclic]
  · try simp only
    exact .unexpected _

end ExprMirrors

theorem exprMirrors : ∀ n, ExprMirrors n
  | 0 => {
      expr := fun _ => by rw [expr, Parser.expr]; exact .fail _
      tail := fun _ => by rw [exprTail, Parser.exprTail]; exact .fail _
      unary := fun _ => by rw [unary, Parser.unary]; exact .fail _
      postfixes := fun _ => by rw [postfixes, Parser.postfixes]; exact .fail _
      arguments := fun _ => by rw [arguments, Parser.arguments]; exact .fail _
      inits := fun _ => by rw [fieldInits, Parser.fieldInits]; exact .fail _
      primary := fun _ => by rw [primary, Parser.primary]; exact .fail _ }
  | n + 1 =>
    have ih := exprMirrors n
    ⟨ih.expr_succ, ih.tail_succ, ih.unary_succ, ih.postfixes_succ, ih.arguments_succ, ih.inits_succ, ih.primary_succ⟩

end NodeParser
end PineLang
