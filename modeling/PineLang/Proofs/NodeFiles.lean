import PineLang.Proofs.NodeParsing
import PineLang.Proofs.Utf8
import PineLang.Token.Lexer

/-!
The parser builds a tree. Statements and items go on where expressions end: a production takes the loose nodes that it
holds and leaves its own (`NodeParser.stmtMirrors`, `NodeParser.item_mirrors`), and an item is put into the file at once,
so at the end only the file is loose, and all items are in it in the order of their numbers (`NodeParser.Filed`). Such a
builder is a tree, which a walk goes over node by node (`parseInto_tree`).
-/
namespace PineLang

namespace Builder

variable {b b' : Builder} {rest ns : List NodeId}

theorem Tidy.real (tidy : b.Tidy rest) {n : NodeId} (member : n ∈ rest) : n.number ≠ 0 := by
  have there := mem_nodes.1 (tidy.there member)
  cases n <;> exact Nat.ne_of_gt (Finset.mem_Icc.mp there).1

/-- Where all that a statement refers to is loose, no slot of it is empty. -/
theorem Tidy.held_eq (tidy : b.Tidy (ns ++ rest)) {k : StmtKind} {x : StmtData k}
    (all : x.parts.map .stmt ++ x.exprs.map .expr = ns) : x.held = ns := by
  rw [StmtData.held, all, List.filter_eq_self]
  exact fun n member => decide_eq_true (tidy.real (List.mem_append_left _ member))

/-- The node stands for the block, and goes on to. -/
def StandsBody (b : Builder) (id : Nat) (x : Body) : Prop := ∃ s ss, x = .block s ss ∧ b.StandsStmt id (.block s ss)

theorem StandsBody.mono {id : Nat} {x : Body} (stands : b.StandsBody id x) (grows : b.Grows b') : b'.StandsBody id x := by
  obtain ⟨s, ss, same, stands⟩ := stands
  exact ⟨s, ss, same, stands.mono grows⟩

theorem StandsBody.span {id : Nat} {x : Body} (stands : b.StandsBody id x) : b.stmtSpan id = x.span := by
  obtain ⟨s, ss, rfl, stands⟩ := stands
  exact stands.span

theorem StandsBody.reads {id : Nat} {x : Body} (stands : b.StandsBody id x) (later : Builder) (grows : b.Grows later)
    (acyclic : later.Acyclic) : bodyOf id (later.stmt id) = x := by
  obtain ⟨s, ss, rfl, stands⟩ := stands
  rw [stands.reads later grows acyclic]
  rfl

end Builder

namespace NodeParser

variable {b b' : Builder} {ls : List Lexeme} {rest : List NodeId}

/-! ## Statements -/

/-- What is read for a statement: a loose node that stands for it. -/
structure MadeStmt (b : Builder) (rest : List NodeId) (y : Nat × Bool) (b' : Builder) (x : Stmt × Bool) : Prop where
  closed : y.2 = x.2
  within : b.Within b'
  tidy : b'.Tidy (.stmt y.1 :: rest)
  stands : b'.StandsStmt y.1 x.1

/-- What is read for a body. -/
structure MadeBody (b : Builder) (rest : List NodeId) (y : Nat × Bool) (b' : Builder) (x : Body × Bool) : Prop where
  closed : y.2 = x.2
  within : b.Within b'
  tidy : b'.Tidy (.stmt y.1 :: rest)
  stands : b'.StandsBody y.1 x.1

/-- What is read for statements. -/
structure MadeStmts (b : Builder) (rest : List NodeId) (ids : List Nat) (b' : Builder) (ss : List Stmt) : Prop where
  within : b.Within b'
  tidy : b'.Tidy (ids.map .stmt ++ rest)
  stand : List.Forall₂ b'.StandsStmt ids ss

/-- A new node takes the place of what it holds and stands for the tree that is made of it. -/
theorem madeStmt {b₀ : Builder} {ns : List NodeId} (within : b₀.Within b) (tidy : b.Tidy (ns ++ rest)) {s : Span}
    {k : StmtKind} (x : StmtData k) (held : x.held = ns) {tree : Stmt} {closed : Bool}
    (reads : ∀ later, b.Grows later → later.Acyclic → later.stmts.find (b.newStmt s x).1 = .node s x →
      later.stmtStep later.stmt (b.newStmt s x).1 = tree) :
    MadeStmt b₀ rest ((b.newStmt s x).1, closed) (b.newStmt s x).2 (tree, closed) :=
  have more := Builder.within_stmt tidy.sound s x
  have tidy' := tidy.stmt s x (.of_eq (by rw [held]))
  ⟨rfl, within.trans more, tidy',
    Builder.stands_newStmt tidy.sound x tidy'.acyclic fun later grows => reads later (more.toGrows.trans grows)⟩

/-- A new node that holds nothing stands for the tree that is no more than its place. -/
theorem bareStmt {k : StmtKind} (tidy : b.Tidy rest) (s : Span) (plain : Builder.Plain k) (tree : Stmt)
    (place : tree.span = s)
    (reads : ∀ later : Builder, later.stmts.find (b.bareStmt s k).1 = .hollow s k →
      later.stmtStep later.stmt (b.bareStmt s k).1 = tree) :
    MadeStmt b rest ((b.bareStmt s k).1, false) (b.bareStmt s k).2 (tree, false) := by
  have found : (b.bareStmt s k).2.stmts.find (b.bareStmt s k).1 = .hollow s k := (Pool.find_bare ..).trans (if_pos rfl)
  refine ⟨rfl, b.within_bare s k, tidy.bare s plain, by rw [found]; exact nofun, ?_, ?_⟩
  · rw [Builder.stmtSpan, found, place]
    rfl
  · intro later grows acyclic
    rw [Builder.stmt_eq acyclic]
    exact reads later (by rw [grows.stmts _ (by rw [found]; exact nofun), found])

/-- Statements that are loose are put into a block. -/
theorem madeBlock {b₀ : Builder} (within : b₀.Within b) {ids : List Nat} {ss : List Stmt}
    (tidy : b.Tidy (ids.map .stmt ++ rest)) (stand : List.Forall₂ b.StandsStmt ids ss) (s : Span) (closed : Bool) :
    MadeBody b₀ rest ((b.newStmt s (.block ids)).1, closed) (b.newStmt s (.block ids)).2 (.block s ss, closed) := by
  have all : (StmtData.block ids).parts.map NodeId.stmt ++ (StmtData.block ids).exprs.map NodeId.expr = ids.map .stmt :=
    List.append_nil _
  have made : MadeStmt b₀ rest ((b.newStmt s (.block ids)).1, closed) (b.newStmt s (.block ids)).2 (.block s ss, closed) :=
    madeStmt within tidy (.block ids) (tidy.held_eq all) fun later grows acyclic found => by
      rw [Builder.stmtStep, found]
      exact congrArg (Stmt.block s) (map_eq (fun _ _ stands => stands.reads later grows acyclic) stand)
  exact ⟨rfl, made.within, made.tidy, s, ss, rfl, made.stands⟩

theorem getLastD_stand {R : Nat → Stmt → Prop} {ids : List Nat} {ss : List Stmt} (stand : List.Forall₂ R ids ss) :
    ∀ {i : Nat} {s : Stmt}, R i s → R (ids.getLastD i) (ss.getLastD s) := by
  induction stand with
  | nil => exact id
  | cons first _ ih =>
    intro i s _
    rw [List.getLastD_cons, List.getLastD_cons]
    exact ih first

theorem block_mirrors {b₀ : Builder} (within : b₀.Within b) {ids : List Nat} {ss : List Stmt}
    (tidy : b.Tidy (ids.map .stmt ++ rest)) (stand : List.Forall₂ b.StandsStmt ids ss) (closed : Bool) :
    Mirrors (do let made ← block ids; return (made, closed)) (pure (.block (Parser.stmtsSpan ss) ss, closed)) b ls
      (MadeBody b₀ rest) := by
  cases stand with
  | nil => exact .step rfl (.pure (madeBlock within tidy .nil {} closed))
  | @cons i s ids ss first others =>
    have all : List.Forall₂ b.StandsStmt (i :: ids) (s :: ss) := .cons first others
    have span : (b.stmtSpan i).cover (b.stmtSpan ((i :: ids).getLastD i)) = Parser.stmtsSpan (s :: ss) := by
      rw [first.span, (getLastD_stand all first).span]
      rfl
    refine .step rfl (.pure ?_)
    rw [← span]
    exact madeBlock within tidy all _ closed

theorem blockOf_run (b : Builder) (ls : List Lexeme) {i : Nat} {s : Stmt} (stands : b.StandsStmt i s) :
    blockOf i b ls = .ok (b.newStmt s.span (.block [i]), ls) := by
  rw [← stands.span]
  rfl

/-- The productions of statements. -/
structure StmtMirrors (n : Nat) : Prop where
  body : ∀ {b : Builder} {rest : List NodeId} {ls : List Lexeme}, b.Tidy rest →
    Mirrors (body n) (Parser.body n) b ls (MadeBody b rest)
  lines : ∀ {b : Builder} {rest : List NodeId} {ls : List Lexeme}, b.Tidy rest →
    Mirrors (bodyStmts n) (Parser.bodyStmts n) b ls (MadeStmts b rest)
  stmt : ∀ {b : Builder} {rest : List NodeId} {ls : List Lexeme}, b.Tidy rest →
    Mirrors (stmt n) (Parser.stmt n) b ls (MadeStmt b rest)
  cond : ∀ {b : Builder} {rest : List NodeId} {ls : List Lexeme}, b.Tidy rest →
    Mirrors (conditional n) (Parser.conditional n) b ls (MadeStmt b rest)

namespace StmtMirrors

variable {n : Nat}

private theorem body_succ (ih : StmtMirrors n) (tidy : b.Tidy rest) :
    Mirrors (NodeParser.body (n + 1)) (Parser.body (n + 1)) b ls (MadeBody b rest) := by
  rw [NodeParser.body, Parser.body]
  refine .isAt ?_ ?_
  · refine .lift fun _ _ _ => .lift fun _ _ _ => (ih.lines tidy).bind fun ids b₁ ss _ _ made => ?_
    exact block_mirrors made.within made.tidy made.stand true
  · refine (ih.stmt tidy).bind ?_
    rintro ⟨i, closed⟩ b₁ ⟨s, _⟩ _ - ⟨rfl, within, tidy, stands⟩
    refine .step (blockOf_run b₁ _ stands) (.pure ?_)
    exact madeBlock within tidy (.cons stands .nil) s.span _

private theorem lines_succ (ih : StmtMirrors n) (tidy : b.Tidy rest) :
    Mirrors (NodeParser.bodyStmts (n + 1)) (Parser.bodyStmts (n + 1)) b ls (MadeStmts b rest) := by
  rw [NodeParser.bodyStmts, Parser.bodyStmts]
  refine (ih.stmt tidy).bind ?_
  rintro ⟨i, closed⟩ b₁ ⟨s, _⟩ _ - ⟨rfl, within, tidy, stands⟩
  refine .lift fun _ _ _ => .isAt ?_ ?_
  · exact .lift fun _ _ _ => .pure ⟨within, tidy, .cons stands .nil⟩
  · refine (ih.lines tidy).bind fun ids b₂ ss _ _ others => .pure ?_
    exact ⟨within.trans others.within, others.tidy.perm List.perm_middle,
      .cons (stands.mono others.within.toGrows) others.stand⟩

/-- The end of a conditional with both branches. -/
theorem both_made {b₀ : Builder} {test yes no : Nat} {cond : Expr} {first second : Body} (within : b₀.Within b)
    (tidy : b.Tidy (.stmt no :: .stmt yes :: .expr test :: rest)) (tested : b.StandsExpr test cond)
    (stands : b.StandsBody yes first) (stands' : b.StandsBody no second) (head : Span) (closed : Bool) :
    Mirrors (do
        let last ← look (·.stmtSpan no)
        let made ← put (·.newStmt (head.cover last) (.cond test yes no))
        return (made, closed))
      (pure (.cond (head.cover second.span) cond first (some second), closed)) b ls (MadeStmt b₀ rest) := by
  refine .look ?_
  rw [stands'.span]
  refine .put (.pure ?_)
  have real : no ≠ 0 := tidy.real List.mem_cons_self
  have tidy : b.Tidy ([NodeId.stmt yes, NodeId.stmt no, NodeId.expr test] ++ rest) := tidy.perm (.swap ..)
  refine madeStmt within tidy (.cond test yes no) (tidy.held_eq rfl) ?_
  intro later grows acyclic found
  rw [Builder.stmtStep, found]
  simp only [tested.reads later grows acyclic, stands.reads later grows acyclic, stands'.reads later grows acyclic, real,
    if_false]

private theorem cond_succ (ih : StmtMirrors n) (tidy : b.Tidy rest) :
    Mirrors (NodeParser.conditional (n + 1)) (Parser.conditional (n + 1)) b ls (MadeStmt b rest) := by
  rw [NodeParser.conditional, Parser.conditional]
  refine .lift fun t _ _ => ((exprMirrors n).expr tidy).bind fun test b₁ cond _ _ tested => .lift fun _ _ _ => ?_
  refine (ih.body tested.tidy).bind ?_
  rintro ⟨yes, closed⟩ b₂ ⟨first, _⟩ _ - ⟨rfl, within₂, tidy₂, stands⟩
  have within := tested.within.trans within₂
  have tested := tested.stands.mono within₂.toGrows
  refine .isAt ?_ ?_
  · refine .lift fun _ ls _ => .kind ?_
    generalize Parser.look ls = k
    split
    · refine (ih.cond tidy₂).bind ?_
      rintro ⟨nested, closed'⟩ b₃ ⟨chained, _⟩ _ - ⟨rfl, within₃, tidy₃, nests⟩
      refine .step (blockOf_run b₃ _ nests) ?_
      obtain ⟨_, within₄, tidy₄, stands'⟩ :=
        madeBlock within₃ tidy₃ (.cons nests .nil) chained.span closed'
      exact both_made (within.trans within₄) tidy₄ (tested.mono within₄.toGrows) (stands.mono within₄.toGrows) stands' _ _
    · refine .lift fun _ _ _ => (ih.body tidy₂).bind ?_
      rintro ⟨no, closed'⟩ b₃ ⟨second, _⟩ _ - ⟨rfl, within₃, tidy₃, stands'⟩
      exact both_made (within.trans within₃) tidy₃ (tested.mono within₃.toGrows) (stands.mono within₃.toGrows) stands' _ _
    · try simp only
      exact .unexpected _
  · refine .look ?_
    rw [stands.span]
    refine .put (.pure ?_)
    have held : (StmtData.cond test yes 0).held = [.stmt yes, .expr test] := by
      have real : yes ≠ 0 := tidy₂.real List.mem_cons_self
      have real' : test ≠ 0 := tidy₂.real (List.mem_cons_of_mem _ List.mem_cons_self)
      simp [StmtData.held, StmtData.parts, StmtData.exprs, NodeId.number, real, real']
    refine madeStmt within tidy₂ (.cond test yes 0) held ?_
    intro later grows acyclic found
    rw [Builder.stmtStep, found]
    simp only [tested.reads later grows acyclic, stands.reads later grows acyclic, if_true]

private theorem stmt_succ (ih : StmtMirrors n) (tidy : b.Tidy rest) :
    Mirrors (NodeParser.stmt (n + 1)) (Parser.stmt (n + 1)) b ls (MadeStmt b rest) := by
  rw [NodeParser.stmt, Parser.stmt]
  refine .current fun t => ?_
  have exprs := exprMirrors n
  generalize t.kind = k
  split
  · exact ih.cond tidy
  · refine .lift fun _ ls _ => .kind ?_
    generalize Parser.endsReturn (Parser.look ls) = ends
    cases ends with
    | true =>
      have tidy : b.Tidy ([] ++ rest) := tidy
      refine .put (.pure (madeStmt (.refl b) tidy (.ret 0) rfl ?_))
      intro later _ _ found
      rw [Builder.stmtStep, found]
      rfl
    | false =>
      refine (exprs.expr tidy).bind fun id b₁ value _ _ made => .look ?_
      rw [made.stands.span]
      refine .put (.pure ?_)
      have real : id ≠ 0 := made.tidy.real List.mem_cons_self
      have tidy : b₁.Tidy ([NodeId.expr id] ++ rest) := made.tidy
      refine madeStmt made.within tidy (.ret id) (tidy.held_eq rfl) ?_
      intro later grows acyclic found
      rw [Builder.stmtStep, found]
      simp only [made.stands.reads later grows acyclic, real, if_false]
  · exact .lift fun _ _ _ => .put (.pure (bareStmt tidy t.span (.inl rfl) (.brk t.span) rfl fun later found => by
      rw [Builder.stmtStep, found]))
  · refine .lift fun _ _ _ => .lift fun _ _ _ => (ih.body tidy).bind ?_
    rintro ⟨inner, closed⟩ b₁ ⟨block, _⟩ _ - ⟨rfl, within, tidy, stands⟩
    refine .look ?_
    rw [stands.span]
    have tidy : b₁.Tidy ([NodeId.stmt inner] ++ rest) := tidy
    refine .put (.pure (madeStmt within tidy (.loop inner) (tidy.held_eq rfl) ?_))
    intro later grows acyclic found
    rw [Builder.stmtStep, found]
    simp only [stands.reads later grows acyclic]
  · refine .lift fun _ _ _ => name_mirrors.bind ?_
    rintro ⟨x, nameSpan⟩ b₁ ⟨text, _⟩ _ - ⟨quiet₁, named, rfl⟩
    refine .lift fun _ _ _ => type_mirrors.bind fun ty b₂ ref _ _ typed => .lift fun _ _ _ => ?_
    have quiet := quiet₁.trans typed.quiet
    refine (exprs.expr (quiet.tidy tidy)).bind fun id b₃ value _ _ made => .look ?_
    rw [made.stands.span]
    refine .put (.pure ?_)
    have tidy : b₃.Tidy ([NodeId.expr id] ++ rest) := made.tidy
    refine madeStmt (quiet.within.trans made.within) tidy (.bind x nameSpan ty id) (tidy.held_eq rfl) ?_
    intro later grows acyclic found
    have grows₂ := made.within.toGrows.trans grows
    have named := (named.mono (typed.quiet.within.toGrows.trans grows₂)).name
    rw [Builder.stmtStep, found]
    simp only [named, typed.reads later grows₂, made.stands.reads later grows acyclic]
  · exact .lift fun _ _ _ => .put (.pure (bareStmt tidy t.span (.inr rfl) (.empty t.span) rfl fun later found => by
      rw [Builder.stmtStep, found]))
  · try simp only
    refine (exprs.expr tidy).bind fun id b₁ x _ _ made => .look ?_
    rw [made.stands.span]
    refine .put (.pure ?_)
    have tidy : b₁.Tidy ([NodeId.expr id] ++ rest) := made.tidy
    refine madeStmt made.within tidy (.expr id) (tidy.held_eq rfl) ?_
    intro later grows acyclic found
    rw [Builder.stmtStep, found]
    simp only [made.stands.reads later grows acyclic]

end StmtMirrors

theorem stmtMirrors : ∀ n, StmtMirrors n
  | 0 => {
      body := fun _ => by rw [body, Parser.body]; exact .fail _
      lines := fun _ => by rw [bodyStmts, Parser.bodyStmts]; exact .fail _
      stmt := fun _ => by rw [stmt, Parser.stmt]; exact .fail _
      cond := fun _ => by rw [conditional, Parser.conditional]; exact .fail _ }
  | n + 1 =>
    have ih := stmtMirrors n
    ⟨ih.body_succ, ih.lines_succ, ih.stmt_succ, ih.cond_succ⟩

/-! ## Parameters and fields -/

/-- What is read for parameters or fields. -/
structure MadeParams (b : Builder) (ps : List ParamNode) (b' : Builder) (xs : List Param) : Prop where
  quiet : Quiet b b'
  reads : ∀ later, b'.Grows later → ps.map later.param = xs

theorem MadeParams.none (b : Builder) : MadeParams b [] b [] := ⟨.refl b, fun _ _ => rfl⟩

theorem MadeParams.cons {b₁ : Builder} {p : ParamNode} {x : Param} {ps : List ParamNode} {xs : List Param}
    (first : MadeParam b p b₁ x) (others : MadeParams b₁ ps b' xs) : MadeParams b (p :: ps) b' (x :: xs) := by
  refine ⟨first.quiet.trans others.quiet, fun later grows => ?_⟩
  rw [List.map_cons, first.reads later (others.quiet.within.toGrows.trans grows), others.reads later grows]

theorem MadeParams.last {ps : List ParamNode} {xs : List Param} (made : MadeParams b ps b' xs) :
    ps.getLast?.map (·.span) = xs.getLast?.map (·.span) := by
  rw [← made.reads b' (.refl b'), List.getLast?_map, Option.map_map]
  rfl

theorem params_mirrors : ∀ (n : Nat) {b : Builder} {ls : List Lexeme},
    Mirrors (params n) (Parser.params n) b ls (MadeParams b)
  | 0, _, _ => .fail _
  | n + 1, b, _ => by
    unfold params Parser.params
    refine field_mirrors.bind fun p b₁ x _ _ first => .isAt ?_ ?_
    · refine .lift fun _ _ _ => (params_mirrors n).bind fun ps b₂ xs _ _ others => ?_
      exact .pure (.cons first others)
    · exact .pure (.cons first (.none b₁))

theorem fieldLines_mirrors : ∀ (n : Nat) {b : Builder} {ls : List Lexeme},
    Mirrors (fieldLines n) (Parser.fieldLines n) b ls (MadeParams b)
  | 0, _, _ => .fail _
  | n + 1, b, _ => by
    unfold fieldLines Parser.fieldLines
    refine field_mirrors.bind fun p b₁ x _ _ first => .lift fun _ _ _ => .isAt ?_ ?_
    · exact .lift fun _ _ _ => .pure (.cons first (.none b₁))
    · refine (fieldLines_mirrors n).bind fun ps b₂ xs _ _ others => ?_
      exact .pure (.cons first others)

theorem bracedFields_mirrors : ∀ (n : Nat) {b : Builder} {ls : List Lexeme},
    Mirrors (bracedFields n) (Parser.bracedFields n) b ls (MadeParams b)
  | 0, _, _ => .fail _
  | n + 1, b, _ => by
    unfold bracedFields Parser.bracedFields
    refine .isAt (.pure (.none b)) ?_
    refine field_mirrors.bind fun p b₁ x _ _ first => .isAt ?_ ?_
    · refine .lift fun _ _ _ => (bracedFields_mirrors n).bind fun ps b₂ xs _ _ others => ?_
      exact .pure (.cons first others)
    · exact .pure (.cons first (.none b₁))

/-! ## Items -/

/-- What is read for an item: a loose node with the next number that goes on to be read as the item. -/
structure MadeItem (b : Builder) (rest : List NodeId) (y : Nat × Bool) (b' : Builder) (x : Item × Bool) : Prop where
  closed : y.2 = x.2
  grows : b.Grows b'
  number : y.1 = b.items.heads.size + 1
  size : b'.items.heads.size = b.items.heads.size + 1
  sameFiles : b'.files = b.files
  tidy : b'.Tidy (.item y.1 :: rest)
  lined : b'.Lined
  reads : ∀ later, b'.Grows later → later.Acyclic → later.item y.1 = x.1

/-- A new item takes the place of what it holds, and its parameters stand behind all others. -/
theorem madeItem {b₀ : Builder} {ns : List NodeId} (within : b₀.Within b) (lined : b₀.Lined) (tidy : b.Tidy (ns ++ rest))
    (ps : List ParamNode) {s : Span} {k : ItemKind} (x : ItemData k) (bodies : x.bodies.map .stmt = ns)
    (range : Builder.rangeOf x = (b.allocParams ps).1) (span : Builder.ownSpan x = s) {i : Nat}
    (number : i = (b.allocParams ps).2.items.heads.size + 1) {tree : Item} {closed : Bool}
    (reads : ∀ later, b.Grows later → later.Acyclic → later.items.find i = .node s x →
      later.paramRange? (b.allocParams ps).1 = some ps → later.item i = tree) :
    MadeItem b₀ rest (i, closed) (b.withItem ps s x) (tree, closed) := by
  rw [Builder.items_allocParams] at number
  subst number
  have grows := Builder.grows_item tidy.sound ps s x
  have items := Builder.items_allocParams b ps
  have size : (b.withItem ps s x).items.heads.size = b.items.heads.size + 1 := by
    rw [← items]
    exact Arena.size_alloc ..
  have found : (b.withItem ps s x).items.find (b.items.heads.size + 1) = .node s x := by
    show ((b.allocParams ps).2.items.make s x).2.find (b.items.heads.size + 1) = _
    rw [items]
    exact (Pool.find_make tidy.sound.items s x _).trans (if_pos rfl)
  refine ⟨rfl, within.toGrows.trans grows, by rw [within.sameItems], by rw [size, within.sameItems], ?_,
    tidy.item ps s x range (.of_eq (by rw [bodies])), ?_, ?_⟩
  · unfold Builder.withItem
    rw [Builder.allocParams_rest]
    exact within.sameFiles
  · exact (lined.congr within.sameItems within.sameParams).item tidy.sound ps s x range span
  · intro later more acyclic
    have known := more.params _ ps (Builder.paramRange?_own b ps)
    exact reads later (grows.trans more) acyclic (by rw [more.items _ (by rw [found]; exact nofun), found]) known

theorem fnItem_mirrors (n : Nat) (tidy : b.Tidy rest) (lined : b.Lined) :
    Mirrors (fnItem n) (Parser.fnItem n) b ls (MadeItem b rest) := by
  unfold fnItem Parser.fnItem
  refine .lift fun t _ _ => name_mirrors.bind ?_
  rintro ⟨f, nameSpan⟩ b₁ ⟨text, _⟩ _ - ⟨quiet₁, named, rfl⟩
  refine .lift fun _ _ _ => .lift fun none _ _ => ?_
  extract_lets go go'
  suffices next : ∀ ps b₂ xs ls, MadeParams b₁ ps b₂ xs → Mirrors (go ps) (go' xs) b₂ ls (MadeItem b rest) by
    cases none with
    | true => exact (Mirrors.pure (.none b₁)).bind fun ps b₂ xs ls _ => next ps b₂ xs ls
    | false => exact (params_mirrors n).bind fun ps b₂ xs ls _ => next ps b₂ xs ls
  intro ps b₂ xs _ listed
  refine .lift fun _ _ _ => .lift fun _ _ _ => type_mirrors.bind fun ret b₃ ref _ _ typed => .lift fun _ _ _ => ?_
  have quiet := (quiet₁.trans listed.quiet).trans typed.quiet
  refine ((stmtMirrors n).body (quiet.tidy tidy)).bind ?_
  rintro ⟨inner, closed⟩ b₄ ⟨body, _⟩ _ - ⟨rfl, within, tidy, stands⟩
  refine .look ?_
  rw [stands.span]
  refine .put (.pure ?_)
  have tidy : b₄.Tidy ([NodeId.stmt inner] ++ rest) := tidy
  refine madeItem (quiet.within.trans within) lined tidy ps
    (.fn ⟨f, nameSpan, (b₄.allocParams ps).1, ret, inner, t.span.cover body.span⟩) rfl rfl rfl rfl ?_
  intro later grows acyclic found known
  have grows₃ := within.toGrows.trans grows
  have grows₂ := typed.quiet.within.toGrows.trans grows₃
  have named := (named.mono (listed.quiet.within.toGrows.trans grows₂)).name
  rw [Builder.item, found]
  simp only [known, named, listed.reads later grows₂, typed.reads later grows₃, stands.reads later grows acyclic]

/-- The end of a struct. -/
theorem struct_made {b₀ : Builder} (quiet : Quiet b₀ b) (tidy : b.Tidy rest) (lined : b₀.Lined) {s : Nat} {text : String}
    (named : b.Named s text) (nameSpan : Span) {fs : List ParamNode} {xs : List Param}
    (reads : ∀ later, b.Grows later → fs.map later.param = xs) (span : Span) (closed : Bool) :
    Mirrors (do let made ← put (·.newStruct s nameSpan fs span); return (made, closed))
      (pure (.struct ⟨text, nameSpan, xs, span⟩, closed)) b ls (MadeItem b₀ rest) := by
  refine .put (.pure ?_)
  have tidy : b.Tidy ([] ++ rest) := tidy
  refine madeItem quiet.within lined tidy fs (.struct ⟨s, nameSpan, (b.allocParams fs).1, span⟩) rfl rfl rfl rfl ?_
  intro later grows _ found known
  rw [Builder.item, found]
  simp only [known, (named.mono grows).name, reads later grows]

theorem structItem_mirrors (n : Nat) (tidy : b.Tidy rest) (lined : b.Lined) :
    Mirrors (structItem n) (Parser.structItem n) b ls (MadeItem b rest) := by
  unfold structItem Parser.structItem
  refine .lift fun t _ _ => name_mirrors.bind ?_
  rintro ⟨s, nameSpan⟩ b₁ ⟨text, _⟩ ls - ⟨quiet, named, rfl⟩
  refine .kind ?_
  generalize Parser.look ls = k
  split
  · refine .lift fun _ _ _ => .lift fun _ _ _ => .lift fun _ _ _ => ?_
    refine (fieldLines_mirrors n).bind fun fs b₂ xs _ _ listed => ?_
    have quiet := quiet.trans listed.quiet
    rw [listed.last]
    exact struct_made quiet (quiet.tidy tidy) lined (named.mono listed.quiet.within.toGrows) nameSpan listed.reads _ true
  · refine .lift fun _ _ _ => (bracedFields_mirrors n).bind fun fs b₂ xs _ _ listed => .lift fun _ _ _ => ?_
    have quiet := quiet.trans listed.quiet
    exact struct_made quiet (quiet.tidy tidy) lined (named.mono listed.quiet.within.toGrows) nameSpan listed.reads _ false
  · try simp only
    exact .unexpected _

theorem item_mirrors (n : Nat) (tidy : b.Tidy rest) (lined : b.Lined) :
    Mirrors (item n) (Parser.item n) b ls (MadeItem b rest) := by
  unfold item Parser.item
  refine .kind ?_
  generalize Parser.look ls = k
  split
  · exact fnItem_mirrors n tidy lined
  · exact structItem_mirrors n tidy lined
  · try simp only
    exact .unexpected _

/-! ## Files -/

/-- All items are in the file, in the order of their numbers, and nothing but the file is loose. -/
structure Filed (b : Builder) (file : Nat) (s : Span) : Prop where
  tidy : b.Tidy [.file file]
  lined : b.Lined
  there : b.files.get? file = some ⟨s, List.range' 1 b.items.heads.size⟩

/-- What is read for the items of a file: they stand side by side. -/
structure MadeItems (b : Builder) (file : Nat) (s : Span) (b' : Builder) (xs : List Item) : Prop where
  grows : b.Grows b'
  filed : Filed b' file s
  size : b'.items.heads.size = b.items.heads.size + xs.length
  reads : ∀ later, b'.Grows later → later.Acyclic →
    (List.range' (b.items.heads.size + 1) xs.length).map later.item = xs

/-- An item is put into its file. -/
theorem Filed.push {file : Nat} {s : Span} {y : Nat × Bool} {x : Item × Bool} (filed : Filed b file s)
    (made : MadeItem b [.file file] y b' x) (ls : List Lexeme) :
    ∃ b'', pushItem file y.1 b' ls = .ok (((), b''), ls) ∧ Filed b'' file s ∧ b'.Grows b'' ∧ b''.items = b'.items := by
  have there : b'.files.get? file = some ⟨s, List.range' 1 b.items.heads.size⟩ := by rw [made.sameFiles, filed.there]
  have pushed : b'.pushItem? file y.1 = some { b' with
      files := b'.files.set file ⟨s, List.range' 1 b.items.heads.size ++ [y.1]⟩ } := by rw [Builder.pushItem?, there]; rfl
  refine ⟨_, ?_, ⟨made.tidy.push pushed (.refl _), made.lined.congr rfl rfl, ?_⟩, b'.grows_files _, rfl⟩
  · show Except.ok (((), (b'.pushItem? file y.1).getD b'), ls) = _
    rw [pushed]
    rfl
  · rw [Builder.get?_set there, if_pos rfl, made.number, ← Builder.numbers_succ, made.size]

theorem items_mirrors (cancelled : Bool) {file : Nat} {s : Span} : ∀ (n : Nat) {b : Builder} {ls : List Lexeme},
    Filed b file s → Mirrors (items cancelled file n) (Parser.items cancelled n) b ls fun _ => MadeItems b file s
  | 0, _, _, _ => .fail _
  | n + 1, b, ls, filed => by
    unfold items Parser.items
    refine .kind ?_
    generalize Parser.look ls = k
    split
    · exact .lift fun _ _ _ => items_mirrors cancelled n filed
    · exact .pure ⟨.refl b, filed, rfl, fun _ _ _ => rfl⟩
    · try simp only
      cases cancelled with
      | true => exact .fail _
      | false =>
        refine (item_mirrors n filed.tidy filed.lined).bind ?_
        rintro ⟨i, closed⟩ b₁ ⟨x, _⟩ ls₁ - made
        obtain ⟨b₂, run, filed₂, grows₂, same⟩ := filed.push made ls₁
        obtain ⟨rfl, grows₁, rfl, size, -, -, -, reads⟩ := made
        refine .step run (.lift fun _ _ _ => (items_mirrors false n filed₂).answered fun _ b₃ xs others => ?_)
        have size : b₂.items.heads.size = b.items.heads.size + 1 := by rw [same, size]
        refine ⟨(grows₁.trans grows₂).trans others.grows, others.filed, ?_, ?_⟩
        · rw [others.size, size, List.length_cons]
          omega
        · intro later grows acyclic
          have first := reads later (grows₂.trans (others.grows.trans grows)) acyclic
          have more := others.reads later grows acyclic
          rw [size] at more
          rw [List.length_cons, List.range'_succ, List.map_cons, first, more]

theorem filed_new (s : Span) : Filed (({} : Builder).newFile s).2 1 s :=
  ⟨Builder.tidy_empty.file s, Builder.lined_empty.congr rfl rfl, rfl⟩

theorem Filed.close {file : Nat} {s : Span} (filed : Filed b file s) (t : Span) : Filed (b.closeFile file t) file t := by
  have closed : b.closeFile file t = { b with files := b.files.set file ⟨t, List.range' 1 b.items.heads.size⟩ } := by
    rw [Builder.closeFile, filed.there]
  refine ⟨filed.tidy.close file t, ?_, ?_⟩
  · rw [closed]
    exact filed.lined.congr rfl rfl
  · rw [closed]
    exact (Builder.get?_set filed.there file).trans (if_pos rfl)

end NodeParser

/-- The place where the lexemes begin. -/
def startOf (ls : List Lexeme) : Span := (ls.head?.map fun l => l.toToken.span).getD {}

/-- In an empty builder the file gets the number one. -/
theorem parseInto_empty (ls : List Lexeme) (cancelled : Bool) : parseInto {} ls cancelled =
    match NodeParser.items cancelled 1 (Parser.depthBound ls.length) (({} : Builder).newFile (startOf ls)).2 ls with
    | .error e => .error e
    | .ok (((), b), rest) => .ok (1, b.closeFile 1 ((startOf ls).cover (startOf rest))) := rfl

/-- Parsing into an empty builder goes like parsing into a tree: with the same fault, or with a file that is read as the
    tree. -/
theorem parseInto_parse (ls : List Lexeme) (cancelled : Bool) :
    match parse ls cancelled with
    | .error e => parseInto {} ls cancelled = .error e
    | .ok tree => ∃ b, parseInto {} ls cancelled = .ok (1, b) ∧ NodeParser.Filed b 1 tree.span ∧ b.file? 1 = some tree := by
  have mirrors : NodeParser.Mirrors _ _ _ ls _ :=
    NodeParser.items_mirrors cancelled (Parser.depthBound ls.length) (NodeParser.filed_new (startOf ls))
  unfold NodeParser.Mirrors at mirrors
  unfold parse
  cases read : Parser.items cancelled (Parser.depthBound ls.length) ls with
  | error e =>
    rw [read] at mirrors
    rw [parseInto_empty, mirrors]
  | ok r =>
    obtain ⟨xs, rest⟩ := r
    rw [read] at mirrors
    obtain ⟨⟨⟩, b, run, made⟩ := mirrors
    let t := (startOf ls).cover (startOf rest)
    have filed := made.filed.close t
    have closed : b.closeFile 1 t = { b with files := b.files.set 1 ⟨t, List.range' 1 b.items.heads.size⟩ } := by
      rw [Builder.closeFile, made.filed.there]
    have size : (b.closeFile 1 t).items.heads.size = xs.length := by
      rw [closed]
      exact made.size.trans (Nat.zero_add _)
    have reads := made.reads _ (closed ▸ b.grows_files _) filed.tidy.acyclic
    refine ⟨b.closeFile 1 t, by rw [parseInto_empty, run], filed, ?_⟩
    rw [Builder.file?, filed.there, size]
    exact congrArg some (congrArg (File.mk _) reads)

/-! ## Trees -/

namespace Builder

/-- All nodes make up a tree below the file. -/
structure IsTree (b : Builder) (file : Nat) : Prop where
  /-- Every node but the file stands in one slot. -/
  slot : ∀ n ∈ b.nodes, n ≠ .file file → b.slots.count n = 1
  /-- Nothing else stands in slots. -/
  inside : ∀ n ∈ b.slots, n ∈ b.nodes ∧ n ≠ .file file
  reached : ∀ n ∈ b.nodes, Relation.ReflTransGen (fun m n => n ∈ b.children m) (.file file) n
  exprs : ∀ id, ∀ c ∈ (b.exprs.find id).refs ExprData.parts, c < id
  stmts : ∀ id, ∀ c ∈ (b.stmts.find id).refs StmtData.parts, c < id
  /-- The ranges of the items follow one another, from the first parameter to the last. -/
  params : (List.range' 1 b.items.heads.size).flatMap (fun id => (b.items.find id).refs paramNumbers) =
    List.range' 1 b.params.size
  /-- A walk meets every node once, with its content, and nothing else but parameters and annotations. -/
  met : ∀ n ∈ b.nodes, ((b.walk file).filterMap Encounter.node?).count n = 1
  metInside : ∀ n ∈ (b.walk file).filterMap Encounter.node?, n ∈ b.nodes
  metParams : (b.walk file).filterMap Encounter.param? = List.range' 1 b.params.size
  whole : .broken ∉ b.walk file

theorem isTree {b : Builder} {file : Nat} {s : Span} (filed : NodeParser.Filed b file s) : b.IsTree file := by
  have tidy := filed.tidy
  have met := tidy.walk_nodes
  have isFile : NodeId.file file ∈ b.nodes := tidy.there List.mem_cons_self
  have single (n : NodeId) : b.nodes.count n = if n ∈ b.nodes then 1 else 0 := (nodup_nodes b).count
  have slots (n : NodeId) : ([NodeId.file file] ++ b.slots).count n = if n ∈ b.nodes then 1 else 0 := by
    rw [tidy.once.count_eq, single]
  refine {
    slot := fun n member other => ?_
    inside := fun n member => ⟨tidy.once.mem_iff.mp (List.mem_append_right _ member), ?_⟩
    reached := fun n member => tidy.reached member
    exprs := tidy.exprs
    stmts := tidy.stmts
    params := filed.lined.inOrder
    met := fun n member => by rw [met.count_eq, single, if_pos member]
    metInside := fun n member => met.mem_iff.mp member
    metParams := tidy.walk_params filed.lined filed.there rfl
    whole := tidy.walk_whole file }
  · have count := slots n
    rw [List.count_append, List.count_singleton, if_pos member] at count
    simpa [other.symm] using count
  · rintro rfl
    have count := slots (.file file)
    rw [List.count_append, List.count_singleton_self, if_pos isFile] at count
    exact List.count_pos_iff.mpr member |>.ne' (by omega)

end Builder

/-- Parsing into an empty builder builds a tree, and the walk over it is that over the tree that is read. -/
theorem parseInto_tree {ls : List Lexeme} {cancelled : Bool} {file : Nat} {b : Builder}
    (ran : parseInto {} ls cancelled = .ok (file, b)) :
    b.IsTree file ∧ ∃ tree, parse ls cancelled = .ok tree ∧ b.file? file = some tree ∧
      (b.walk file).map Encounter.visit = tree.walk := by
  have parsed := parseInto_parse ls cancelled
  cases read : parse ls cancelled with
  | error e =>
    rw [read] at parsed
    rw [show parseInto {} ls cancelled = .error e from parsed] at ran
    cases ran
  | ok tree =>
    rw [read] at parsed
    obtain ⟨b', ran', filed, reads⟩ := parsed
    rw [ran'] at ran
    cases ran
    exact ⟨Builder.isTree filed, tree, rfl, reads, filed.tidy.walk_visits filed.lined reads⟩

/-- A struct, and a function with parameters and two branches. -/
def ratio : Bytes :=
  utf8 ("type Size \x7b w: i64, h: i64 \x7d\n" ++
    "fun ratio(s: Size, unit: i64) -> i64:\n    if unit == 0: return 0 else: return s.w * s.h / unit\n")

theorem parseInto_tree_ratio : ∃ file b, parseInto {} (lexemes 0 ratio) = .ok (file, b) ∧
    (b.exprs.heads.size, b.stmts.heads.size, b.items.heads.size, b.params.size) = (11, 6, 2, 4) ∧ b.IsTree file ∧
    ∃ tree, parse (lexemes 0 ratio) = .ok tree ∧ b.file? file = some tree ∧ (b.walk file).map Encounter.visit = tree.walk := by
  have sizes : ((parseInto {} (lexemes 0 ratio)).toOption.map fun r =>
      (r.2.exprs.heads.size, r.2.stmts.heads.size, r.2.items.heads.size, r.2.params.size)) = some (11, 6, 2, 4) := by
    rw [ratio]
    simp only [utf8_append]
    repeat rw [utf8_ofList]
    decide +kernel
  cases ran : parseInto {} (lexemes 0 ratio) with
  | error e =>
    rw [ran] at sizes
    cases sizes
  | ok r =>
    obtain ⟨file, b⟩ := r
    rw [ran] at sizes
    exact ⟨file, b, rfl, Option.some.inj sizes, parseInto_tree ran⟩

end PineLang
