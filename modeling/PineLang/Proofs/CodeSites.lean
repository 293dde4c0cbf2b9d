import PineLang.Proofs.LiteralLowering

/-!
The statements of C code, nested ones included, each with the variables that are visible before it. What
a unit contains is found statement by statement: the sites of the code that a body became are, in order,
the code of each of its own sites (`Lower.stmts_sites`), and every site has code of its own that its
statement alone decides (`Lower.ownCode`).
-/
namespace PineLang

namespace C

/-- A C statement, and the variables that are visible before it, innermost first. -/
structure CodeSite where
  scope : List String
  stmt : CStmt

/-- The site of a branch that is no block. A block is none: its statements are. -/
def CStmt.lone (scope : List String) (s : CStmt) : List CodeSite := if s.isBlock then [] else [⟨scope, s⟩]

mutual

/-- The sites inside a statement. -/
def CStmt.sites (scope : List String) : CStmt → List CodeSite
  | .block ss => codeSites scope ss
  | .cond _ yes no => yes.lone scope ++ yes.sites scope ++ elseCode scope no
  | .while _ b => b.lone scope ++ b.sites scope
  | _ => []
termination_by structural s => s

/-- The sites of an optional branch. -/
def elseCode (scope : List String) : Option CStmt → List CodeSite
  | none => []
  | some s => s.lone scope ++ s.sites scope
termination_by structural s => s

/-- The sites of the statements of a block. What one declares, those after it see. -/
@[simp] def codeSites (scope : List String) : List CStmt → List CodeSite
  | [] => []
  | s :: ss => ⟨scope, s⟩ :: (s.sites scope ++ codeSites (s.declared ++ scope) ss)
termination_by structural ss => ss

end

theorem codeSites_append (ys : List CStmt) : ∀ (xs : List CStmt) (scope : List String),
    codeSites scope (xs ++ ys) = codeSites scope xs ++ codeSites (scopeAfter scope xs) ys
  | [], _ => rfl
  | x :: xs, scope => by
    rw [List.cons_append, codeSites, codeSites, scopeAfter, codeSites_append ys xs]
    simp

/-- Each statement of a block has a site. -/
theorem exists_site {s : CStmt} : ∀ {ss : List CStmt}, s ∈ ss → ∀ scope, ∃ inner, ⟨inner, s⟩ ∈ codeSites scope ss
  | [], member, _ => by cases member
  | t :: ss, member, scope => by
    rw [codeSites]
    rcases List.mem_cons.mp member with rfl | later
    · exact ⟨scope, List.mem_cons_self ..⟩
    · obtain ⟨inner, inside⟩ := exists_site later (t.declared ++ scope)
      exact ⟨inner, List.mem_cons_of_mem _ (List.mem_append_right _ inside)⟩

/-- The expressions that a statement itself evaluates. -/
@[grind =] def CStmt.evaluated : CStmt → List CExpr
  | .ret (some x) => [x]
  | .cond t _ _ => [t]
  | .while t _ => [t]
  | .expr x => [x]
  | _ => []

end C

namespace Lower
open C (CStmt CodeSite codeSites elseCode scopeAfter)

/-- The code of a site that is not the code of a site inside it. -/
def ownCode (ls : Layouts) (site : Site) : List CodeSite :=
  match stmt ls site.stmt with
  | .error _ => []
  | .ok run =>
    match site.stmt.binding? with
    | some _ => codeSites site.scope run
    | none => run.map fun s => ⟨site.scope, s⟩

theorem ownCode_bound {ls : Layouts} (site : Site) {run : List CStmt} (made : stmt ls site.stmt = .ok run)
    (bound : site.stmt.binding?.isSome) : ownCode ls site = codeSites site.scope run := by
  obtain ⟨binding, bound⟩ := Option.isSome_iff_exists.mp bound
  simp only [ownCode, made, bound]

theorem ownCode_unbound {ls : Layouts} (site : Site) {run : List CStmt} (made : stmt ls site.stmt = .ok run)
    (unbound : site.stmt.binding? = none) : ownCode ls site = run.map fun c => ⟨site.scope, c⟩ := by
  simp only [ownCode, made, unbound]

/-- The sites of one statement, when those inside it are known. -/
theorem sites_single {ls : Layouts} {scope : List String} {s : Stmt} {c : CStmt} (made : stmt ls s = .ok [c])
    (unbound : s.binding? = none) (inside : c.sites scope = (s.sites scope).flatMap (ownCode ls)) :
    codeSites scope [c] = ownCode ls ⟨scope, s⟩ ++ (s.sites scope).flatMap (ownCode ls) := by
  rw [ownCode_unbound ⟨scope, s⟩ made unbound, codeSites, codeSites, inside]
  simp

mutual

/-- The sites of the code of a statement are its own code and that of the sites inside it. -/
theorem stmt_sites {ls : Layouts} (scope : List String) : ∀ {s : Stmt} {run : List CStmt}, stmt ls s = .ok run →
    codeSites scope run = ownCode ls ⟨scope, s⟩ ++ (s.sites scope).flatMap (ownCode ls)
  | .block _ ss, run, made => by
    have code := made
    simp only [stmt, bind_ok, pure_ok] at made
    obtain ⟨inner, innerOk, rfl⟩ := made
    exact sites_single code rfl (stmts_sites scope innerOk)
  | .cond _ t yes no, run, made => by
    have code := made
    simp only [stmt, bind_ok, pure_ok] at made
    obtain ⟨test, -, first, firstOk, second, secondOk, rfl⟩ := made
    refine sites_single code rfl ?_
    rw [CStmt.sites, otherwise_sites scope secondOk, Stmt.sites, List.flatMap_append, ← body_sites scope firstOk]
    rfl
  | .loop _ b, run, made => by
    have code := made
    simp only [stmt, bind_ok, pure_ok] at made
    obtain ⟨inner, innerOk, rfl⟩ := made
    exact sites_single code rfl (body_sites scope innerOk)
  | .bind _ _ _ _ _, run, made => by
    rw [ownCode_bound ⟨scope, _⟩ made rfl]
    exact (List.append_nil _).symm
  | .expr _ x, run, made => by
    have code := made
    simp only [stmt, bind_ok, pure_ok] at made
    obtain ⟨y, -, rfl⟩ := made
    exact sites_single code rfl rfl
  | .ret _ none, run, made => by
    have code := made
    cases made
    exact sites_single code rfl rfl
  | .ret _ (some x), run, made => by
    have code := made
    simp only [stmt, bind_ok, pure_ok] at made
    obtain ⟨y, -, rfl⟩ := made
    exact sites_single code rfl rfl
  | .brk _, run, made | .empty _, run, made => by
    have code := made
    cases made
    exact sites_single code rfl rfl
  | .absent _, run, made | .hollow _ _, run, made => by cases made

theorem body_sites {ls : Layouts} (scope : List String) : ∀ {b : Body} {run : List CStmt}, body ls b = .ok run →
    codeSites scope run = (b.sites scope).flatMap (ownCode ls)
  | .block _ ss, run, made => stmts_sites scope made
  | .stray _ s, run, made => by
    unfold body at made
    split at made <;> simp_all

theorem otherwise_sites {ls : Layouts} (scope : List String) : ∀ {no : Option Body} {c : Option CStmt},
    otherwise ls no = .ok c → elseCode scope c = (elseSites scope no).flatMap (ownCode ls)
  | none, c, made => by
    cases made
    rfl
  | some b, c, made => by
    simp only [otherwise, bind_ok, pure_ok] at made
    obtain ⟨inner, innerOk, rfl⟩ := made
    exact body_sites scope innerOk

/-- The sites of the code of statements are the code of each of their sites. -/
theorem stmts_sites {ls : Layouts} (scope : List String) : ∀ {ss : List Stmt} {run : List CStmt},
    stmts ls ss = .ok run → codeSites scope run = (stmtSites scope ss).flatMap (ownCode ls)
  | [], run, made => by
    cases made
    rfl
  | s :: ss, run, made => by
    simp only [stmts, bind_ok, pure_ok] at made
    obtain ⟨first, firstOk, more, moreOk, rfl⟩ := made
    rw [C.codeSites_append, stmt_sites scope firstOk, stmt_declared firstOk, stmts_sites _ moreOk, stmtSites]
    simp

end

/-- The sites of the definition that a function became. -/
theorem fn_sites {ls : Layouts} {d : FnDecl} {params : List C.CParam} {inner : List CStmt}
    (names : params.map (·.name) = d.params.map (·.name)) (made : body ls d.body = .ok inner) :
    codeSites (paramScope (params.map (·.name))) inner = d.sites.flatMap (ownCode ls) := by
  rw [body_sites _ made, names, FnDecl.sites]

end Lower
end PineLang
