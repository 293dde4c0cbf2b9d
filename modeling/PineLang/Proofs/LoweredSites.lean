import Mathlib.Data.List.Forall2
import PineLang.Proofs.Sites
import PineLang.Proofs.Validity

/-!
Where the statements of a file end up in its C unit. A point of a C block is the statements that are
still to come there and the locals that are visible. Lowering takes every site of a file to a point of
the function that its own function became, with the same locals in the same order
(`exists_counterpart`), and it leaves the identifiers of every expression in their places
(`expr_idents`).
-/
namespace PineLang

namespace C

/-! ## Points of C code -/

mutual

/-- The identifiers of an expression, in the order of the text. -/
def CExpr.idents : CExpr → List String
  | .ident n => [n]
  | .const _ => []
  | .type _ => []
  | .sizeOf _ => []
  | .member x _ _ => x.idents
  | .call f args => f.idents ++ argIdents args
  | .cast _ x => x.idents
  | .unary _ x => x.idents
  | .binary _ a b => a.idents ++ b.idents
  | .assign _ a b => a.idents ++ b.idents
  | .missing => []
termination_by structural x => x

/-- The identifiers of arguments. -/
def argIdents : List CExpr → List String
  | [] => []
  | x :: xs => x.idents ++ argIdents xs
termination_by structural xs => xs

end

/-- The locals that a statement adds for those after it. -/
@[grind =] def CStmt.declared : CStmt → List String
  | .var n _ => [n]
  | _ => []

/-- The locals that are visible after statements, innermost first. -/
def scopeAfter (scope : List String) : List CStmt → List String
  | [] => scope
  | s :: ss => scopeAfter (s.declared ++ scope) ss

/-- A place in a block: the locals that are visible there, innermost first, and the statements from
    there to the end of the block. -/
structure Point where
  scope : List String
  rest : List CStmt

mutual

/-- The points inside a statement. -/
def CStmt.points (scope : List String) : CStmt → List Point
  | .block ss => points scope ss
  | .cond _ yes no => yes.points scope ++ elsePoints scope no
  | .while _ b => b.points scope
  | _ => []
termination_by structural s => s

/-- The points of an optional branch. -/
def elsePoints (scope : List String) : Option CStmt → List Point
  | none => []
  | some s => s.points scope
termination_by structural s => s

/-- The points of the statements of a block. -/
def points (scope : List String) : List CStmt → List Point
  | [] => [⟨scope, []⟩]
  | s :: ss => ⟨scope, s :: ss⟩ :: (s.points scope ++ points (s.declared ++ scope) ss)
termination_by structural ss => ss

end

theorem start_mem_points (scope : List String) (ss : List CStmt) : ⟨scope, ss⟩ ∈ points scope ss := by
  cases ss <;> simp [points]

/-- The points behind some statements are points of all of them. -/
theorem mem_points_append {p : Point} {more : List CStmt} : ∀ {first : List CStmt} {scope : List String},
    p ∈ points (scopeAfter scope first) more → p ∈ points scope (first ++ more)
  | [], _, inside => inside
  | s :: first, scope, inside => by
    rw [List.cons_append, points]
    exact List.mem_cons_of_mem _ (List.mem_append_right _ (mem_points_append inside))

end C

namespace Lower
open C (CType CExpr CStmt CParam Decl CUnit Point points scopeAfter)

/-! ## Lowering step by step -/

theorem bind_ok {α β : Type} {x : Except LowerFault α} {g : α → Except LowerFault β} {r : β} :
    (x >>= g) = .ok r ↔ ∃ a, x = .ok a ∧ g a = .ok r := by
  cases x with
  | error e => simp [bind, Except.bind]
  | ok a => simp [bind, Except.bind]

theorem pure_ok {α : Type} {a r : α} : (pure a : Except LowerFault α) = .ok r ↔ a = r := by
  simp [pure, Except.pure]

/-- A test of a result that comes out succeeded on what the result is. -/
theorem ok_of_test {α β ε : Type} {result : Except ε α} {test : α → β} {b : β}
    (run : result.toOption.map test = some b) : ∃ a, result = .ok a ∧ test a = b := by
  cases result with
  | error e => cases run
  | ok a => exact ⟨a, rfl, Option.some.inj run⟩

theorem mapM_ok_iff {α β : Type} {g : α → Except LowerFault β} : ∀ {xs : List α} {ys : List β},
    xs.mapM g = .ok ys ↔ List.Forall₂ (fun x y => g x = .ok y) xs ys
  | [], ys => by
    rw [List.mapM_nil, pure_ok]
    cases ys <;> simp
  | x :: xs, ys => by
    rw [List.mapM_cons, bind_ok]
    simp only [bind_ok, pure_ok, mapM_ok_iff, List.forall₂_cons_left_iff]
    constructor
    · rintro ⟨y, first, ys', rest, rfl⟩
      exact ⟨y, ys', first, rest, rfl⟩
    · rintro ⟨y, ys', first, rest, rfl⟩
      exact ⟨y, first, ys', rest, rfl⟩

/-- What stands at a place of one list is related to what stands there in the other. -/
theorem forall₂_at {α β : Type} {R : α → β → Prop} {xs : List α} {ys : List β} (related : List.Forall₂ R xs ys)
    {i : Nat} {x : α} (here : xs[i]? = some x) : ∃ y, ys[i]? = some y ∧ R x y := by
  obtain ⟨inside, rfl⟩ := List.getElem?_eq_some_iff.mp here
  have inside' : i < ys.length := related.length_eq ▸ inside
  exact ⟨ys[i], List.getElem?_eq_getElem inside', (List.forall₂_iff_get.mp related).2 i inside inside'⟩

theorem params_names {ps : List Param} {cs : List CParam} (made : ps.mapM param = .ok cs) :
    cs.map (·.name) = ps.map (·.name) := by
  rw [mapM_ok_iff] at made
  induction made with
  | nil => rfl
  | @cons p c ps cs here _ ih =>
    obtain ⟨t, -, same⟩ := bind_ok.mp here
    rw [List.map_cons, List.map_cons, ih, ← pure_ok.mp same]

/-! ## Expressions -/

theorem literal_idents {v : Literal} {c : CExpr} (made : literal v = .ok c) : c.idents = [] := by
  cases v with
  | other k t => cases made
  | _ => cases made; rfl

mutual

/-- Every identifier keeps its place and its name. -/
theorem expr_idents : ∀ {e : Expr} {c : CExpr}, expr e = .ok c → c.idents = e.idents
  | .ident _ n, c, made => by
    cases made
    rfl
  | .lit _ v, c, made => literal_idents made
  | .assign _ a b, c, made => by
    simp only [expr, bind_ok, pure_ok] at made
    obtain ⟨l, left, r, right, rfl⟩ := made
    rw [CExpr.idents, expr_idents left, expr_idents right]
    exact (identsAmong_append a.parts b.parts).symm
  | .call _ f args, c, made => by
    simp only [expr, bind_ok, pure_ok] at made
    obtain ⟨cs, inner, g, callee, rfl⟩ := made
    rw [CExpr.idents, expr_idents callee, exprs_idents inner]
    exact (identsAmong_append f.parts (exprsParts args)).symm
  | .member _ t _ _, c, made => by
    simp only [expr, bind_ok, pure_ok] at made
    obtain ⟨x, target, rfl⟩ := made
    rw [CExpr.idents, expr_idents target]
    rfl
  | .unary _ _ x, c, made => by
    simp only [expr, bind_ok, pure_ok] at made
    obtain ⟨y, operand, rfl⟩ := made
    rw [CExpr.idents, expr_idents operand]
    rfl
  | .binary _ _ a b, c, made => by
    simp only [expr, bind_ok, pure_ok] at made
    obtain ⟨_, -, l, left, r, right, rfl⟩ := made
    rw [CExpr.idents, expr_idents left, expr_idents right]
    exact (identsAmong_append a.parts b.parts).symm
  | .group _ x, c, made => by
    rw [expr] at made
    rw [expr_idents made]
    rfl
  | .structLit _ _ _ _, c, made => by cases made
  | .absent _, c, made => by cases made
  | .hollow _ _, c, made => by cases made

theorem exprs_idents : ∀ {es : List Expr} {cs : List CExpr}, exprs es = .ok cs →
    C.argIdents cs = identsAmong (exprsParts es)
  | [], cs, made => by
    cases made
    rfl
  | x :: xs, cs, made => by
    simp only [exprs, bind_ok, pure_ok] at made
    obtain ⟨y, first, ys, rest, rfl⟩ := made
    rw [C.argIdents, expr_idents first, exprs_idents rest, exprsParts, identsAmong_append]
    rfl

end

/-! ## Statements -/

/-- What a binding becomes: a declaration, then an assignment of its value; for a literal, a block that
    ends in an assignment of what the constructor returns. -/
theorem binding_cases {ls : Layouts} {x : String} {t : Ty} {v : Expr} {cs : List CStmt}
    (made : binding ls x t v = .ok cs) :
    (∃ T c, v.literal? = none ∧ ty t = .ok T ∧ expr v = .ok c ∧ cs = [.var x T, C.set (.ident x) c]) ∨
    ∃ n fs l temps done args, v.literal? = some (n, fs) ∧ ls.find n = some l ∧
      temporaries l [] fs = .ok (temps, done) ∧ constructorArgs l done = .ok args ∧
      cs = [.var x (.ptr (.struct n)),
        .block (temps ++ [C.set (.ident x) (C.call (constructorName n) args)])] := by
  have plain (isValue : v.literal? = none)
      (steps : (do let t ← ty t; let c ← expr v; return [CStmt.var x t, C.set (.ident x) c]) = .ok cs) :
      ∃ T c, v.literal? = none ∧ ty t = .ok T ∧ expr v = .ok c ∧ cs = [.var x T, C.set (.ident x) c] := by
    simp only [bind_ok, pure_ok] at steps
    obtain ⟨T, typed, c, valued, rfl⟩ := steps
    exact ⟨T, c, isValue, typed, valued, rfl⟩
  unfold binding at made
  split at made
  · next _ n _ fs =>
    right
    unfold structInit at made
    split at made
    · cases made
    · next l found =>
      simp only [bind_ok, pure_ok] at made
      obtain ⟨⟨temps, done⟩, temporariesOk, args, argsOk, rfl⟩ := made
      exact ⟨n, fs, l, temps, done, args, rfl, found, temporariesOk, argsOk, rfl⟩
  · cases made
  · next notLiteral _ =>
    refine .inl (plain ?_ made)
    cases v with
    | structLit s n ns fs => exact absurd rfl (notLiteral s n ns fs)
    | _ => rfl

theorem stmt_of_binding {ls : Layouts} {s : Stmt} {x : String} {t : Ty} {v : Expr}
    (bound : s.binding? = some (x, t, v)) : stmt ls s = binding ls x t v := by
  obtain ⟨sp, xs, r, rfl, rfl⟩ := Stmt.eq_bind bound
  rfl

/-- The C code of a statement declares for what follows what the statement does. -/
theorem stmt_declared {ls : Layouts} {s : Stmt} {cs : List CStmt} (made : stmt ls s = .ok cs) (scope : List String) :
    scopeAfter scope cs = s.declared ++ scope := by
  cases s with
  | block _ ss =>
    simp only [stmt, bind_ok, pure_ok] at made
    obtain ⟨_, -, rfl⟩ := made
    rfl
  | expr _ x =>
    simp only [stmt, bind_ok, pure_ok] at made
    obtain ⟨_, -, rfl⟩ := made
    rfl
  | cond _ t yes no =>
    simp only [stmt, bind_ok, pure_ok] at made
    obtain ⟨_, -, _, -, _, -, rfl⟩ := made
    rfl
  | ret _ v =>
    cases v with
    | none =>
      cases made
      rfl
    | some x =>
      simp only [stmt, bind_ok, pure_ok] at made
      obtain ⟨_, -, rfl⟩ := made
      rfl
  | bind _ x _ t v =>
    rcases binding_cases made with ⟨_, _, -, -, -, rfl⟩ | ⟨_, _, _, _, _, _, -, -, -, -, rfl⟩ <;> rfl
  | loop _ b =>
    simp only [stmt, bind_ok, pure_ok] at made
    obtain ⟨_, -, rfl⟩ := made
    rfl
  | brk _ =>
    cases made
    rfl
  | empty _ =>
    cases made
    rfl
  | absent _ => cases made
  | hollow _ _ => cases made

/-- The code that a site becomes starts at one of the points, with the locals of the site. -/
def Reached (ls : Layouts) (ps : List Point) (site : Site) : Prop :=
  ∃ run rest, stmt ls site.stmt = .ok run ∧ ⟨site.scope, run ++ rest⟩ ∈ ps

theorem Reached.mono {ls : Layouts} {ps qs : List Point} {site : Site} (reached : Reached ls ps site)
    (sub : ∀ p ∈ ps, p ∈ qs) : Reached ls qs site := by
  obtain ⟨run, rest, made, inside⟩ := reached
  exact ⟨run, rest, made, sub _ inside⟩

mutual

/-- The sites inside a statement are reached inside its code, which then is a single statement. -/
theorem stmt_reached {ls : Layouts} (scope : List String) : ∀ {s : Stmt} {cs : List CStmt}, stmt ls s = .ok cs →
    ∀ site ∈ s.sites scope, ∃ c, cs = [c] ∧ Reached ls (c.points scope) site
  | .block _ ss, cs, made, site, member => by
    simp only [stmt, bind_ok, pure_ok] at made
    obtain ⟨inner, innerOk, rfl⟩ := made
    exact ⟨_, rfl, stmts_reached scope innerOk site member⟩
  | .cond _ t yes no, cs, made, site, member => by
    simp only [stmt, bind_ok, pure_ok] at made
    obtain ⟨test, -, first, firstOk, second, secondOk, rfl⟩ := made
    refine ⟨_, rfl, ?_⟩
    rw [C.CStmt.points]
    rcases List.mem_append.mp member with inYes | inNo
    · exact (body_reached scope firstOk site inYes).mono fun p inside => List.mem_append_left _ inside
    · exact (otherwise_reached scope secondOk site inNo).mono fun p inside => List.mem_append_right _ inside
  | .loop _ b, cs, made, site, member => by
    simp only [stmt, bind_ok, pure_ok] at made
    obtain ⟨inner, innerOk, rfl⟩ := made
    exact ⟨_, rfl, body_reached scope innerOk site member⟩
  | .expr _ _, _, _, _, member | .ret _ _, _, _, _, member | .brk _, _, _, _, member
  | .bind _ _ _ _ _, _, _, _, member | .empty _, _, _, _, member | .absent _, _, _, _, member
  | .hollow _ _, _, _, _, member => by cases member

theorem body_reached {ls : Layouts} (scope : List String) : ∀ {b : Body} {cs : List CStmt}, body ls b = .ok cs →
    ∀ site ∈ b.sites scope, Reached ls (points scope cs) site
  | .block _ ss, cs, made, site, member => stmts_reached scope made site member
  | .stray id s, cs, made, site, member => by
    unfold body at made
    split at made <;> simp_all

theorem otherwise_reached {ls : Layouts} (scope : List String) : ∀ {no : Option Body} {c : Option CStmt},
    otherwise ls no = .ok c → ∀ site ∈ elseSites scope no, Reached ls (C.elsePoints scope c) site
  | none, _, _, _, member => by cases member
  | some b, c, made, site, member => by
    simp only [otherwise, bind_ok, pure_ok] at made
    obtain ⟨inner, innerOk, rfl⟩ := made
    exact body_reached scope innerOk site member

/-- Every site of a list of statements is reached in their code. -/
theorem stmts_reached {ls : Layouts} (scope : List String) : ∀ {ss : List Stmt} {cs : List CStmt},
    stmts ls ss = .ok cs → ∀ site ∈ stmtSites scope ss, Reached ls (points scope cs) site
  | [], _, _, _, member => by cases member
  | s :: ss, cs, made, site, member => by
    simp only [stmts, bind_ok, pure_ok] at made
    obtain ⟨first, firstOk, more, moreOk, rfl⟩ := made
    rcases List.mem_cons.mp member with rfl | later
    · exact ⟨first, more, firstOk, C.start_mem_points scope (first ++ more)⟩
    · rcases List.mem_append.mp later with inside | behind
      · obtain ⟨c, rfl, reached⟩ := stmt_reached scope firstOk site inside
        refine reached.mono fun p inPoints => ?_
        rw [List.singleton_append, C.points]
        exact List.mem_cons_of_mem _ (List.mem_append_left _ inPoints)
      · refine (stmts_reached (s.declared ++ scope) moreOk site behind).mono fun p inPoints => ?_
        rw [← stmt_declared firstOk scope] at inPoints
        exact C.mem_points_append inPoints

end

/-! ## Files -/

theorem item_fn_ok {ls : Layouts} {d : FnDecl} {decl : Decl} (made : item ls (.fn d) = .ok decl) :
    ∃ params ret inner, params.map (·.name) = d.params.map (·.name) ∧ body ls d.body = .ok inner ∧
      decl = .fn (fnName d.name) params ret (some inner) := by
  simp only [item, bind_ok, pure_ok] at made
  obtain ⟨params, paramsOk, ret, -, inner, innerOk, rfl⟩ := made
  exact ⟨params, ret, inner, params_names paramsOk, innerOk, rfl⟩

/-- A unit has the declarations of the items, one for each, and the constructors after them. -/
theorem lower_cases {f : File} {name : String} {u : CUnit} (lowered : f.lower name = .ok u) :
    ∃ ls decls, layouts [] f.items = .ok ls ∧ List.Forall₂ (fun i d => item ls i = .ok d) f.items decls ∧
      u.decls = decls ++ ls.map constructor := by
  simp only [File.lower, bind_ok, pure_ok, mapM_ok_iff] at lowered
  obtain ⟨ls, laid, decls, made, rfl⟩ := lowered
  exact ⟨ls, decls, laid, made, rfl⟩

/-- A function of the file and the definition that it became stand at the same place. -/
theorem fn_at {f : File} {name : String} {u : CUnit} (lowered : f.lower name = .ok u) {i : Nat} {d : FnDecl}
    (here : f.items[i]? = some (.fn d)) :
    ∃ ls params ret inner, layouts [] f.items = .ok ls ∧ params.map (·.name) = d.params.map (·.name) ∧
      body ls d.body = .ok inner ∧ u.decls[i]? = some (.fn (fnName d.name) params ret (some inner)) := by
  obtain ⟨ls, decls, laid, made, all⟩ := lower_cases lowered
  obtain ⟨decl, atDecl, step⟩ := forall₂_at made here
  obtain ⟨params, ret, inner, names, innerOk, rfl⟩ := item_fn_ok step
  refine ⟨ls, params, ret, inner, laid, names, innerOk, ?_⟩
  rw [all, List.getElem?_append_left (List.getElem?_eq_some_iff.mp atDecl).1, atDecl]

/-- `run` is the code that the statement of a site became: it stands in the definition that the
    function of the site became, where the locals of the site are visible. -/
def Counterpart (f : File) (u : CUnit) (site : Site) (run : List CStmt) : Prop :=
  ∃ (i : Nat) (d : FnDecl) (ls : Layouts) (params : List CParam) (ret : CType) (inner rest : List CStmt),
    f.items[i]? = some (.fn d) ∧ site ∈ d.sites ∧ u.decls[i]? = some (.fn (fnName d.name) params ret (some inner)) ∧
    layouts [] f.items = .ok ls ∧ stmt ls site.stmt = .ok run ∧
    ⟨site.scope, run ++ rest⟩ ∈ points (paramScope (params.map (·.name))) inner

theorem exists_counterpart {f : File} {name : String} {u : CUnit} (lowered : f.lower name = .ok u) {site : Site}
    (member : site ∈ f.sites) : ∃ run, Counterpart f u site run := by
  obtain ⟨d, inItems, inFn⟩ := mem_fileSites.mp member
  obtain ⟨i, here⟩ := List.getElem?_of_mem inItems
  obtain ⟨ls, params, ret, inner, laid, names, innerOk, decl⟩ := fn_at lowered here
  obtain ⟨run, rest, made, inside⟩ := body_reached _ innerOk site inFn
  rw [← names] at inside
  exact ⟨run, i, d, ls, params, ret, inner, rest, here, inFn, decl, laid, made, inside⟩

/-! ## Layouts -/

/-- What collecting the structs does with one item. -/
theorem layouts_cases {i : Item} {items : List Item} {known all : Layouts}
    (laid : layouts known (i :: items) = .ok all) :
    (∃ d members, i = .struct d ∧ d.fields.mapM param = .ok members ∧ known.find d.name = none ∧
      layouts (known ++ [⟨d.name, members⟩]) items = .ok all) ∨
    ((∀ d, i ≠ .struct d) ∧ layouts known items = .ok all) := by
  unfold layouts at laid
  split at laid
  · next same => cases same
  · next d _ same =>
    cases same
    left
    obtain ⟨members, membersOk, step⟩ := bind_ok.mp laid
    split at step
    · cases step
    · next fresh => exact ⟨d, members, rfl, membersOk, by simpa using fresh, step⟩
  · cases laid
  · next other _ same =>
    cases same
    exact .inr ⟨fun d same' => other d same', laid⟩

theorem layouts_keep {n : String} {l : Layout} : ∀ {items : List Item} {known all : Layouts},
    layouts known items = .ok all → known.find n = some l → all.find n = some l
  | [], known, all, laid, found => by
    cases laid
    exact found
  | i :: items, known, all, laid, found => by
    rcases layouts_cases laid with ⟨d, members, -, -, -, rest⟩ | ⟨-, rest⟩
    · refine layouts_keep rest ?_
      rw [Layouts.find, List.find?_append, ← Layouts.find, found]
      rfl
    · exact layouts_keep rest found

/-- A declared struct has a layout with its fields. -/
theorem layouts_find {d : StructDecl} : ∀ {items : List Item} {known all : Layouts},
    layouts known items = .ok all → Item.struct d ∈ items →
      ∃ members, d.fields.mapM param = .ok members ∧ all.find d.name = some ⟨d.name, members⟩
  | [], _, _, _, member => by cases member
  | i :: items, known, all, laid, member => by
    rcases layouts_cases laid with ⟨e, members, rfl, membersOk, fresh, rest⟩ | ⟨other, rest⟩
    · rcases List.mem_cons.mp member with same | later
      · cases same
        refine ⟨members, membersOk, layouts_keep rest ?_⟩
        rw [Layouts.find, List.find?_append, ← Layouts.find, fresh]
        simp
      · exact layouts_find rest later
    · rcases List.mem_cons.mp member with same | later
      · exact absurd same.symm (other d)
      · exact layouts_find rest later

end Lower
end PineLang
