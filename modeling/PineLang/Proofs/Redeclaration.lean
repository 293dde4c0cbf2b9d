import PineLang.Proofs.Constructors

/-!
Names that are declared twice in a scope of C: among the parameters of a function and the variables of its
outermost block, or among the variables of a block inside it. Lowering gives every block a block with the same
variables, and the block that it adds for a literal has a temporary for each field, never two; constructors keep
their names apart. So a unit declares no name twice exactly if no block of the source binds one twice
(`once_declared_iff`), which the checker does not look at.
-/
namespace PineLang

/-- No list has a name twice. -/
def EachDistinct (blocks : List (List String)) : Prop := ∀ names ∈ blocks, names.Nodup

instance (blocks : List (List String)) : Decidable (EachDistinct blocks) :=
  inferInstanceAs (Decidable (∀ names ∈ blocks, names.Nodup))

@[simp] theorem eachDistinct_nil : EachDistinct [] := List.forall_mem_nil _

@[simp] theorem eachDistinct_cons {names : List String} {blocks : List (List String)} :
    EachDistinct (names :: blocks) ↔ names.Nodup ∧ EachDistinct blocks := List.forall_mem_cons

@[simp] theorem eachDistinct_append {xs ys : List (List String)} :
    EachDistinct (xs ++ ys) ↔ EachDistinct xs ∧ EachDistinct ys := List.forall_mem_append

/-! ## Blocks of C code -/

namespace C

/-- The variables that statements declare for the block they stand in, in order. -/
def blockNames (ss : List CStmt) : List String := ss.flatMap CStmt.declared

mutual

/-- The variables of the blocks in a statement, block by block. -/
@[simp] def CStmt.blocks : CStmt → List (List String)
  | .block ss => blockNames ss :: innerBlocks ss
  | .cond _ yes no => yes.blocks ++ elseBlocks no
  | .while _ b => b.blocks
  | _ => []
termination_by structural s => s

/-- The variables of the blocks in an optional branch. -/
def elseBlocks : Option CStmt → List (List String)
  | none => []
  | some s => s.blocks
termination_by structural s => s

/-- The variables of the blocks inside a block. -/
@[simp] def innerBlocks : List CStmt → List (List String)
  | [] => []
  | s :: ss => s.blocks ++ innerBlocks ss
termination_by structural ss => ss

end

theorem innerBlocks_append (ys : List CStmt) : ∀ xs : List CStmt,
    innerBlocks (xs ++ ys) = innerBlocks xs ++ innerBlocks ys
  | [] => rfl
  | x :: xs => by rw [List.cons_append, innerBlocks, innerBlocks, innerBlocks_append ys xs, List.append_assoc]

theorem blockNames_append (xs ys : List CStmt) : blockNames (xs ++ ys) = blockNames xs ++ blockNames ys :=
  List.flatMap_append

/-- What is visible after statements is what they declare, the last one innermost. -/
theorem scopeAfter_eq : ∀ (ss : List CStmt) (scope : List String), scopeAfter scope ss = (blockNames ss).reverse ++ scope
  | [], _ => rfl
  | s :: ss, scope => by
    have single : s.declared.reverse = s.declared := by cases s <;> rfl
    have names : blockNames (s :: ss) = s.declared ++ blockNames ss := List.flatMap_cons
    rw [scopeAfter, scopeAfter_eq ss, names, List.reverse_append, single, List.append_assoc]

/-- The scopes of a function. Its parameters are in that of its outermost block. -/
def Decl.scopes : Decl → List (List String)
  | .fn _ params _ (some body) => (params.map (·.name) ++ blockNames body) :: innerBlocks body
  | .fn _ params _ none => [params.map (·.name)]
  | _ => []

/-- No scope of a function declares a name twice. -/
def CUnit.OnceDeclared (u : CUnit) : Prop := ∀ d ∈ u.decls, EachDistinct d.scopes

instance (u : CUnit) : Decidable u.OnceDeclared := inferInstanceAs (Decidable (∀ d ∈ u.decls, EachDistinct d.scopes))

end C

/-! ## Blocks of the source -/

/-- The locals that statements bind in the block they stand in, in order. -/
def boundNames (ss : List Stmt) : List String := ss.flatMap Stmt.declared

/-- The locals that the statements of a body bind in it. -/
def Body.bound : Body → List String
  | .block _ ss => boundNames ss
  | .stray _ s => s.declared

mutual

/-- The locals of the blocks in a statement, block by block. -/
def Stmt.blocks : Stmt → List (List String)
  | .block _ ss => boundNames ss :: stmtBlocks ss
  | .cond _ _ yes no => yes.bound :: (yes.inner ++ branchBlocks no)
  | .loop _ b => b.bound :: b.inner
  | _ => []

/-- The locals of the blocks inside a body. -/
def Body.inner : Body → List (List String)
  | .block _ ss => stmtBlocks ss
  | .stray _ s => s.blocks

/-- The locals of an optional branch and of the blocks inside it. -/
def branchBlocks : Option Body → List (List String)
  | none => []
  | some b => b.bound :: b.inner

/-- The locals of the blocks inside a block. -/
def stmtBlocks : List Stmt → List (List String)
  | [] => []
  | s :: ss => s.blocks ++ stmtBlocks ss

end

/-- The scopes of a function. Its parameters are in that of its body. -/
def FnDecl.scopes (d : FnDecl) : List (List String) := (d.params.map (·.name) ++ d.body.bound) :: d.body.inner

/-- No block binds a name twice, and no function a name that one of its parameters has. -/
def File.OnceBound (f : File) : Prop := ∀ d, Item.fn d ∈ f.items → EachDistinct d.scopes

namespace Lower
open C (CStmt CParam Decl blockNames innerBlocks)

/-! ## Temporaries -/

/-- No two temporaries have the same name. -/
theorem temporaries_nodup {l : Layout} : ∀ {fs : List FieldInit} {done all : List String} {code : List CStmt},
    temporaries l done fs = .ok (code, all) → done.Nodup → all.Nodup
  | [], done, all, code, made, distinct => by
    cases made
    exact distinct
  | .mk f s v :: fs, done, all, code, made, distinct => by
    unfold temporaries at made
    split at made
    · cases made
    · split at made
      · cases made
      · next fresh =>
        simp only [bind_ok, pure_ok] at made
        obtain ⟨c, -, ⟨more, _⟩, rest, same⟩ := made
        cases same
        have apart : f ∉ done := by simpa using fresh
        exact temporaries_nodup rest (List.nodup_append.mpr ⟨distinct, List.nodup_singleton f, by
          rintro n inside m here rfl
          exact apart (List.mem_singleton.mp here ▸ inside)⟩)

/-- The code of temporaries declares them, and has no blocks. -/
theorem temporaries_blocks (ts : List Temporary) (more : List CStmt) :
    blockNames (ts.flatMap Temporary.code ++ more) = ts.map (·.name) ++ blockNames more ∧
      innerBlocks (ts.flatMap Temporary.code ++ more) = innerBlocks more := by
  induction ts with
  | nil => exact ⟨rfl, rfl⟩
  | cons t ts ih => exact ⟨congrArg (t.name :: ·) ih.1, ih.2⟩

/-! ## Statements -/

theorem stmt_blockNames {ls : Layouts} {s : Stmt} {run : List CStmt} (made : stmt ls s = .ok run) :
    blockNames run = s.declared := by
  have after := C.scopeAfter_eq run []
  rw [stmt_declared made, List.append_nil, List.append_nil] at after
  have single : s.declared.reverse = s.declared := by cases s <;> rfl
  rw [← List.reverse_reverse (blockNames run), ← after, single]

/-- The block of a block's code has the block's locals. -/
theorem stmts_blockNames {ls : Layouts} {ss : List Stmt} {run : List CStmt} (made : stmts ls ss = .ok run) :
    blockNames run = boundNames ss := by
  induction ss generalizing run with
  | nil =>
    cases made
    rfl
  | cons s ss ih =>
    simp only [stmts, bind_ok, pure_ok] at made
    obtain ⟨first, firstOk, more, moreOk, rfl⟩ := made
    rw [C.blockNames_append, stmt_blockNames firstOk, ih moreOk]
    rfl

theorem body_blockNames {ls : Layouts} {b : Body} {run : List CStmt} (made : body ls b = .ok run) :
    blockNames run = b.bound := by
  cases b with
  | block _ ss => exact stmts_blockNames made
  | stray _ s =>
    unfold body at made
    split at made <;> simp_all

/-- The block that a binding of a literal adds declares no name twice. -/
theorem binding_distinct {ls : Layouts} {x : String} {t : Ty} {v : Expr} {run : List CStmt}
    (made : binding ls x t v = .ok run) : EachDistinct (innerBlocks run) := by
  rcases binding_cases made with ⟨T, c, -, -, -, rfl⟩ | ⟨n, fs, l, temps, done, args, -, -, temporary, -, rfl⟩
  · exact eachDistinct_nil
  · have distinct := temporaries_nodup temporary List.nodup_nil
    obtain ⟨ts, -, rfl, rfl⟩ := temporaries_cases temporary
    obtain ⟨names, inner⟩ := temporaries_blocks ts [C.set (.ident x) (C.call (constructorName n) args)]
    have blocks : innerBlocks [.var x (.ptr (.struct n)), .block (ts.flatMap Temporary.code ++
        [C.set (.ident x) (C.call (constructorName n) args)])] = [ts.map (·.name)] := by
      simp only [innerBlocks, CStmt.blocks, names, inner]
      simp [blockNames, C.set, CStmt.declared, CStmt.blocks]
    rw [blocks, eachDistinct_cons]
    exact ⟨by simpa using distinct, eachDistinct_nil⟩

mutual

theorem stmt_distinct_iff {ls : Layouts} : ∀ {s : Stmt} {run : List CStmt}, stmt ls s = .ok run →
    (EachDistinct (innerBlocks run) ↔ EachDistinct s.blocks)
  | .block _ ss, run, made => by
    simp only [stmt, bind_ok, pure_ok] at made
    obtain ⟨inner, innerOk, rfl⟩ := made
    simp [innerBlocks, CStmt.blocks, Stmt.blocks, stmts_blockNames innerOk, stmts_distinct_iff innerOk]
  | .cond _ t yes no, run, made => by
    simp only [stmt, bind_ok, pure_ok] at made
    obtain ⟨test, -, first, firstOk, second, secondOk, rfl⟩ := made
    simp [innerBlocks, CStmt.blocks, Stmt.blocks, body_blockNames firstOk, body_distinct_iff firstOk,
      otherwise_distinct_iff secondOk]
  | .loop _ b, run, made => by
    simp only [stmt, bind_ok, pure_ok] at made
    obtain ⟨inner, innerOk, rfl⟩ := made
    simp [innerBlocks, CStmt.blocks, Stmt.blocks, body_blockNames innerOk, body_distinct_iff innerOk]
  | .bind _ _ _ _ _, run, made => iff_of_true (binding_distinct made) eachDistinct_nil
  | .expr _ x, run, made => by
    simp only [stmt, bind_ok, pure_ok] at made
    obtain ⟨y, -, rfl⟩ := made
    rfl
  | .ret _ none, run, made => by
    cases made
    rfl
  | .ret _ (some x), run, made => by
    simp only [stmt, bind_ok, pure_ok] at made
    obtain ⟨y, -, rfl⟩ := made
    rfl
  | .brk _, run, made | .empty _, run, made => by
    cases made
    rfl
  | .absent _, run, made | .hollow _ _, run, made => by cases made

theorem body_distinct_iff {ls : Layouts} : ∀ {b : Body} {run : List CStmt}, body ls b = .ok run →
    (EachDistinct (innerBlocks run) ↔ EachDistinct b.inner)
  | .block _ ss, run, made => stmts_distinct_iff made
  | .stray _ s, run, made => by
    unfold body at made
    split at made <;> simp_all

theorem otherwise_distinct_iff {ls : Layouts} : ∀ {no : Option Body} {c : Option CStmt}, otherwise ls no = .ok c →
    (EachDistinct (C.elseBlocks c) ↔ EachDistinct (branchBlocks no))
  | none, c, made => by
    cases made
    rfl
  | some b, c, made => by
    simp only [otherwise, bind_ok, pure_ok] at made
    obtain ⟨inner, innerOk, rfl⟩ := made
    simp [C.elseBlocks, CStmt.blocks, branchBlocks, body_blockNames innerOk, body_distinct_iff innerOk]

/-- The blocks in the code of statements declare no name twice exactly if the blocks in the statements bind none
    twice. -/
theorem stmts_distinct_iff {ls : Layouts} : ∀ {ss : List Stmt} {run : List CStmt}, stmts ls ss = .ok run →
    (EachDistinct (innerBlocks run) ↔ EachDistinct (stmtBlocks ss))
  | [], run, made => by
    cases made
    rfl
  | s :: ss, run, made => by
    simp only [stmts, bind_ok, pure_ok] at made
    obtain ⟨first, firstOk, more, moreOk, rfl⟩ := made
    rw [C.innerBlocks_append, stmtBlocks, eachDistinct_append, eachDistinct_append, stmt_distinct_iff firstOk,
      stmts_distinct_iff moreOk]

end

/-! ## Declarations -/

/-- A function declares no name twice in a scope exactly if its source does not. -/
theorem item_distinct_iff {ls : Layouts} {i : Item} {d : Decl} (made : item ls i = .ok d) :
    EachDistinct d.scopes ↔ ∀ e, i = .fn e → EachDistinct e.scopes := by
  cases i with
  | fn e =>
    obtain ⟨params, ret, inner, names, innerOk, rfl⟩ := item_fn_ok made
    simp [C.Decl.scopes, FnDecl.scopes, names, body_blockNames innerOk, body_distinct_iff innerOk]
  | struct e =>
    cases made
    simp [C.Decl.scopes]
  | absent _ | hollow _ _ => cases made

/-- The constructor of a struct declares no name twice. -/
theorem constructor_distinct {l : Layout} (distinct : (l.members.map (·.name)).Nodup) :
    EachDistinct (constructor l).scopes := by
  have stores (ms ps : List String) : innerBlocks
      (ms.zipWith (fun m y => C.set (.member (.ident l.target) .indirect m) (.ident y)) ps) = [] := by
    induction ms generalizing ps with
    | nil => rfl
    | cons m ms ih =>
      cases ps with
      | nil => rfl
      | cons p ps => exact ih ps
  have inner : innerBlocks l.body = [] := by
    rw [Layout.body, innerBlocks, innerBlocks, C.innerBlocks_append, stores]
    rfl
  have names : blockNames l.body = [l.target] := l.body_declared
  rw [constructor_eq, C.Decl.scopes, eachDistinct_cons, inner, names]
  refine ⟨List.nodup_append.mpr ⟨Layout.params_nodup distinct, List.nodup_singleton _, ?_⟩, eachDistinct_nil⟩
  rintro n isParam m isTarget rfl
  rw [List.mem_singleton.mp isTarget] at isParam
  exact l.target_settles.notMem (List.mem_append_right _ isParam)

end Lower

/-! ## Units -/

/-- An accepted file is lowered. The scopes of the unit's functions, constructors included, declare no name twice
    exactly if no block of the file binds a name twice and none of its functions a name of its own parameters. -/
theorem once_declared_iff (file : Nat) (content : Bytes) (tree : File) (isProgram : Bool) (name : String)
    (parsed : parse (lexemes file content) = .ok tree) (accepted : (tree.check isProgram).errors = 0) :
    ∃ u, tree.lower name = .ok u ∧ (u.OnceDeclared ↔ tree.OnceBound) := by
  obtain ⟨valid, u, lowered⟩ := lower_of_accepted parsed accepted name
  obtain ⟨ls, decls, unit⟩ := Lower.unit_cases lowered
  refine ⟨u, lowered, ?_⟩
  have constructors : ∀ d ∈ ls.map Lower.constructor, EachDistinct d.scopes := by
    rw [List.forall_mem_map]
    intro l inside
    obtain ⟨k, atLayout⟩ := List.getElem?_of_mem inside
    obtain ⟨d, atStruct, laid⟩ := Lower.forall₂_at unit.structs.flip atLayout
    have member := Check.mem_structs.mp (List.mem_of_getElem? atStruct)
    exact Lower.constructor_distinct (laid.names ▸ (valid.structs d member).distinct)
  rw [C.CUnit.OnceDeclared, unit.decls, List.forall_mem_append, and_iff_left constructors]
  constructor
  · intro once e member
    obtain ⟨k, atItem⟩ := List.getElem?_of_mem member
    obtain ⟨d, atDecl, made⟩ := Lower.forall₂_at unit.items atItem
    exact (Lower.item_distinct_iff made).mp (once d (List.mem_of_getElem? atDecl)) e rfl
  · intro once d inside
    obtain ⟨k, atDecl⟩ := List.getElem?_of_mem inside
    obtain ⟨i, atItem, made⟩ := Lower.forall₂_at unit.items.flip atDecl
    refine (Lower.item_distinct_iff made).mpr ?_
    rintro e rfl
    exact once e (List.mem_of_getElem? atItem)

/-- A name that is bound again in an inner block and in another one, and a literal. -/
def nested : Bytes :=
  utf8 ("type P \x7b a: i64, b: i64 \x7d\nfun f(a: i64, b: i64) -> P:\n    if a == b:\n        let a: i64 = 1\n" ++
    "        f(a, b)\n    else:\n        let a: i64 = 2\n        f(b, a)\n    let p: P = P \x7b b: 1, a: 2 \x7d\n" ++
    "    return p\n")

theorem once_declared_nested : ∃ tree u, parse (lexemes 0 nested) = .ok tree ∧ (tree.check false).errors = 0 ∧
    tree.lower "app" = .ok u ∧ u.decls.flatMap C.Decl.scopes = [["a", "b", "p"], ["a"], ["a"], ["b", "a"],
      ["a", "b", "n"]] ∧ u.OnceDeclared ∧ tree.OnceBound := by
  have run : ((parse (lexemes 0 nested)).toOption.map fun tree => ((tree.check false).errors,
      (tree.lower "app").toOption.map fun u => (u.decls.flatMap C.Decl.scopes, decide u.OnceDeclared))) =
      some (0, some ([["a", "b", "p"], ["a"], ["a"], ["b", "a"], ["a", "b", "n"]], true)) := by
    rw [nested]
    simp only [utf8_append]
    repeat rw [utf8_ofList]
    decide +kernel
  obtain ⟨tree, parsed, facts⟩ := Lower.ok_of_test run
  obtain ⟨accepted, code⟩ := Prod.mk.inj facts
  obtain ⟨v, lowered', places⟩ := Lower.ok_of_test code
  obtain ⟨scopes, once⟩ := Prod.mk.inj places
  obtain ⟨u, lowered, bound⟩ := once_declared_iff 0 nested tree false "app" parsed accepted
  cases Except.ok.inj (lowered.symm.trans lowered')
  exact ⟨tree, v, parsed, accepted, lowered, scopes, of_decide_eq_true once, bound.mp (of_decide_eq_true once)⟩

/-- Two parameters of one name, and a local that is bound twice. -/
def repeated : Bytes :=
  utf8 "fun f(a: i64, a: i64) -> i64: return a\nfun g() -> _:\n    let b: i64 = 1\n    let b: i64 = 2\n"

/-- Both come out in C as they are. -/
theorem declared_twice : ∃ tree u, parse (lexemes 0 repeated) = .ok tree ∧ (tree.check false).errors = 0 ∧
    tree.lower "app" = .ok u ∧ u.decls.flatMap C.Decl.scopes = [["a", "a"], ["b", "b"]] ∧ ¬ u.OnceDeclared := by
  have run : ((parse (lexemes 0 repeated)).toOption.map fun tree => ((tree.check false).errors,
      (tree.lower "app").toOption.map fun u => (u.decls.flatMap C.Decl.scopes, decide u.OnceDeclared))) =
      some (0, some ([["a", "a"], ["b", "b"]], false)) := by
    rw [repeated, utf8_ofList]
    decide +kernel
  obtain ⟨tree, parsed, facts⟩ := Lower.ok_of_test run
  obtain ⟨accepted, code⟩ := Prod.mk.inj facts
  obtain ⟨u, lowered, places⟩ := Lower.ok_of_test code
  obtain ⟨scopes, once⟩ := Prod.mk.inj places
  exact ⟨tree, u, parsed, accepted, lowered, scopes, of_decide_eq_false once⟩

end PineLang
