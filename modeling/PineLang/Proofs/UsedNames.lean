import PineLang.Proofs.LoweredUnit
import PineLang.Proofs.References

/-!
The names that expressions use: those of identifiers, and those of the members that are reached. Lowering
adds names of its own, of temporaries, constructors and what a constructor calls, but none of them is a
keyword of C. The names that the source uses stay as they are, and nothing keeps a keyword from being
among them (`keyword_used_iff`).
-/
namespace PineLang

/-! ## Names that expressions use -/

/-- The names that an expression uses, without those that the expressions inside it use. -/
def Expr.own : Expr → List String
  | .ident _ n => [n]
  | .member _ _ f _ => [f]
  | _ => []

/-- The names that some expressions use, each without the expressions inside it. -/
def usedAmong (parts : List Expr) : List String := parts.flatMap Expr.own

/-- The names that an expression uses. -/
def Expr.used (e : Expr) : List String := usedAmong e.parts

/-- The names that the expressions of a statement use, without those of the statements inside it. -/
def Stmt.used (s : Stmt) : List String := s.exprs.flatMap Expr.used

/-- The names that the expressions of an item use. -/
def Item.used (i : Item) : List String := i.sites.flatMap fun site => site.stmt.used

/-- The names that the expressions of a file use. -/
def File.used (f : File) : List String := f.items.flatMap Item.used

namespace C

mutual

/-- The names that an expression uses. -/
@[simp] def CExpr.used : CExpr → List String
  | .ident n => [n]
  | .const _ => []
  | .type _ => []
  | .sizeOf _ => []
  | .member x _ f => f :: x.used
  | .call f args => f.used ++ argsUsed args
  | .cast _ x => x.used
  | .unary _ x => x.used
  | .binary _ a b => a.used ++ b.used
  | .assign _ a b => a.used ++ b.used
  | .missing => []
termination_by structural x => x

/-- The names that arguments use. -/
def argsUsed : List CExpr → List String
  | [] => []
  | x :: xs => x.used ++ argsUsed xs
termination_by structural xs => xs

end

/-- The names that the expressions of a statement use, without those of the statements inside it. -/
def CStmt.used (s : CStmt) : List String := s.evaluated.flatMap CExpr.used

/-- The names that the expressions of some statements use, each without the statements inside it. -/
def usedAt (sites : List CodeSite) : List String := sites.flatMap fun site => site.stmt.used

/-- The names that the expressions of a declaration use. -/
def Decl.used : Decl → List String
  | .struct _ _ => []
  | .var _ _ init => (init.map CExpr.used).getD []
  | .fn _ ps _ body => usedAt (codeSites (paramScope (ps.map (·.name))) (body.getD []))

/-- The names that the expressions of a unit use. -/
def CUnit.used (u : CUnit) : List String := u.decls.flatMap Decl.used

theorem set_used (a b : CExpr) : (set a b).used = a.used ++ b.used := List.append_nil _

/-- What statements use that have no statements inside them. -/
theorem flat_used {ss : List CStmt} (flat : ∀ s ∈ ss, ∀ scope, s.sites scope = []) :
    ∀ scope, usedAt (codeSites scope ss) = ss.flatMap CStmt.used := by
  induction ss with
  | nil => exact fun _ => rfl
  | cons s ss ih =>
    rw [List.forall_mem_cons] at flat
    intro scope
    rw [codeSites, flat.1, List.nil_append, usedAt, List.flatMap_cons, ← usedAt, ih flat.2, List.flatMap_cons]

theorem argsUsed_idents (xs : List String) : argsUsed (xs.map .ident) = xs := by
  induction xs with
  | nil => rfl
  | cons x xs ih => rw [List.map_cons, argsUsed, ih, CExpr.used, List.singleton_append]

end C

theorem usedAmong_append (xs ys : List Expr) : usedAmong (xs ++ ys) = usedAmong xs ++ usedAmong ys :=
  List.flatMap_append

theorem mem_fieldsUsed {n : String} {fs : List FieldInit} :
    n ∈ usedAmong (fieldsParts fs) ↔ ∃ f ∈ fs, n ∈ f.value.used := by
  induction fs with
  | nil => simp [fieldsParts, usedAmong]
  | cons f fs ih =>
    have parts : f.parts = f.value.parts := by cases f; rfl
    rw [fieldsParts, usedAmong_append, List.mem_append, ih, parts, ← Expr.used]
    simp

theorem literal_used {v : Expr} {struct : String} {fields : List FieldInit}
    (isLiteral : v.literal? = some (struct, fields)) {n : String} : n ∈ v.used ↔ ∃ f ∈ fields, n ∈ f.value.used := by
  cases v with
  | structLit s m ms fs =>
    cases isLiteral
    exact mem_fieldsUsed
  | _ => cases isLiteral

/-! ## Names that lowering adds -/

/-- A keyword of C has no part that all constructors' names end in. -/
theorem keyword_ending : ∀ k ∈ Check.cKeywords, ¬ Check.constructorEnding.toList <:+ k.toList := by
  decide

theorem constructorName_not_keyword (struct : String) : Lower.constructorName struct ∉ Check.cKeywords :=
  fun keyword => keyword_ending _ keyword (constructorName_ending struct)

/-- The local of a constructor is `n`, perhaps with a number. -/
theorem localName_head (taken : List String) : (Lower.localName taken).toList.head? = some 'n' := by
  have each (i : Nat) : (if i == 0 then "n" else "n" ++ toString i).toList.head? = some 'n' := by
    split <;> simp
  unfold Lower.localName Lower.firstFree
  split
  · exact each _
  · exact each 0

theorem localName_not_keyword (taken : List String) : Lower.localName taken ∉ Check.cKeywords := by
  have none : ∀ k ∈ Check.cKeywords, k.toList.head? ≠ some 'n' := by decide
  exact fun keyword => none _ keyword (localName_head taken)

namespace Lower
open C (CType CExpr CStmt CParam Decl CUnit CodeSite codeSites)

/-! ## Expressions -/

mutual

theorem expr_used : ∀ {e : Expr} {c : CExpr}, expr e = .ok c → c.used = usedAmong e.parts
  | .ident _ n, c, made => by
    cases made
    rfl
  | .lit _ v, c, made => by
    rw [expr] at made
    cases v with
    | other k t => cases made
    | _ =>
      cases made
      rfl
  | .assign _ a b, c, made => by
    simp only [expr, bind_ok, pure_ok] at made
    obtain ⟨l, left, r, right, rfl⟩ := made
    rw [CExpr.used, expr_used left, expr_used right]
    exact (usedAmong_append a.parts b.parts).symm
  | .call _ f args, c, made => by
    simp only [expr, bind_ok, pure_ok] at made
    obtain ⟨cs, inner, g, callee, rfl⟩ := made
    rw [CExpr.used, expr_used callee, exprs_used inner]
    exact (usedAmong_append f.parts (exprsParts args)).symm
  | .member _ t f _, c, made => by
    simp only [expr, bind_ok, pure_ok] at made
    obtain ⟨x, target, rfl⟩ := made
    rw [CExpr.used, expr_used target]
    rfl
  | .unary _ _ x, c, made => by
    simp only [expr, bind_ok, pure_ok] at made
    obtain ⟨y, operand, rfl⟩ := made
    rw [CExpr.used, expr_used operand]
    rfl
  | .binary _ _ a b, c, made => by
    simp only [expr, bind_ok, pure_ok] at made
    obtain ⟨_, -, l, left, r, right, rfl⟩ := made
    rw [CExpr.used, expr_used left, expr_used right]
    exact (usedAmong_append a.parts b.parts).symm
  | .group _ x, c, made => by
    rw [expr] at made
    rw [expr_used made]
    rfl
  | .structLit _ _ _ _, c, made => by cases made
  | .absent _, c, made => by cases made
  | .hollow _ _, c, made => by cases made

theorem exprs_used : ∀ {es : List Expr} {cs : List CExpr}, exprs es = .ok cs →
    C.argsUsed cs = usedAmong (exprsParts es)
  | [], cs, made => by
    cases made
    rfl
  | x :: xs, cs, made => by
    simp only [exprs, bind_ok, pure_ok] at made
    obtain ⟨y, first, ys, rest, rfl⟩ := made
    rw [C.argsUsed, expr_used first, exprs_used rest, exprsParts, usedAmong_append]

end

/-! ## Statements -/

/-- The code of a statement that binds nothing uses what the statement uses. -/
theorem unbound_used {ls : Layouts} {scope : List String} {s : Stmt} {run : List CStmt} (made : stmt ls s = .ok run)
    (unbound : s.binding? = none) : C.usedAt (ownCode ls ⟨scope, s⟩) = s.used := by
  have each : C.usedAt (ownCode ls ⟨scope, s⟩) = run.flatMap CStmt.used := by
    rw [ownCode_unbound ⟨scope, s⟩ made unbound, C.usedAt, List.flatMap_map]
  rw [each]
  cases s with
  | expr _ x =>
    simp only [stmt, bind_ok, pure_ok] at made
    obtain ⟨c, valued, rfl⟩ := made
    simp [CStmt.used, CStmt.evaluated, Stmt.used, Stmt.exprs, expr_used valued, Expr.used]
  | cond _ t _ _ =>
    simp only [stmt, bind_ok, pure_ok] at made
    obtain ⟨c, tested, _, -, _, -, rfl⟩ := made
    simp [CStmt.used, CStmt.evaluated, Stmt.used, Stmt.exprs, expr_used tested, Expr.used]
  | ret _ v =>
    cases v with
    | none =>
      cases made
      rfl
    | some x =>
      simp only [stmt, bind_ok, pure_ok] at made
      obtain ⟨c, valued, rfl⟩ := made
      simp [CStmt.used, CStmt.evaluated, Stmt.used, Stmt.exprs, expr_used valued, Expr.used]
  | loop _ b =>
    simp only [stmt, bind_ok, pure_ok] at made
    obtain ⟨_, -, rfl⟩ := made
    rfl
  | block _ ss =>
    simp only [stmt, bind_ok, pure_ok] at made
    obtain ⟨_, -, rfl⟩ := made
    rfl
  | brk _ | empty _ =>
    cases made
    rfl
  | bind _ _ _ _ _ => cases unbound
  | absent _ | hollow _ _ => cases made

theorem Temporary.flat {ts : List Temporary} : ∀ s ∈ ts.flatMap Temporary.code, ∀ scope, s.sites scope = [] := by
  intro s inside scope
  obtain ⟨t, -, here⟩ := List.mem_flatMap.mp inside
  rcases List.mem_cons.mp here with rfl | assigned
  · rfl
  · rw [List.mem_singleton.mp assigned]
    rfl

/-- The code of a temporary uses its name and what its value uses. -/
theorem Temporary.code_used (t : Temporary) : t.code.flatMap CStmt.used = t.name :: t.value.used := by
  have declared : (CStmt.var t.name t.type).used = [] := rfl
  rw [Temporary.code, List.flatMap_cons, declared, List.flatMap_singleton, C.set_used]
  rfl

/-- What the code of the binding of a literal uses. -/
theorem literal_code_used {scope : List String} {x f : String} {T : CType} {ts : List Temporary} {args : List String} :
    C.usedAt (codeSites scope [.var x T,
        .block (ts.flatMap Temporary.code ++ [C.set (.ident x) (C.call f (args.map .ident))])]) =
      ts.flatMap (fun t => t.name :: t.value.used) ++ x :: f :: args := by
  have flat : ∀ s ∈ ts.flatMap Temporary.code ++ [C.set (.ident x) (C.call f (args.map .ident))],
      ∀ inner, s.sites inner = [] := by
    rw [List.forall_mem_append]
    exact ⟨Temporary.flat, List.forall_mem_singleton.mpr fun _ => rfl⟩
  have built : (C.set (.ident x) (C.call f (args.map .ident))).used = x :: f :: args := by
    rw [C.set_used, C.call, CExpr.used, CExpr.used, CExpr.used, C.argsUsed_idents]
    rfl
  have split : C.usedAt (codeSites scope [.var x T,
      .block (ts.flatMap Temporary.code ++ [C.set (.ident x) (C.call f (args.map .ident))])]) =
      C.usedAt (codeSites (x :: scope) (ts.flatMap Temporary.code ++
        [C.set (.ident x) (C.call f (args.map .ident))])) := by
    simp [codeSites, CStmt.sites, C.usedAt, CStmt.used, CStmt.evaluated, CStmt.declared]
  rw [split, C.flat_used flat, List.flatMap_append, List.flatMap_assoc, List.flatMap_singleton, built]
  simp only [Temporary.code_used]

theorem binding_used {s : Stmt} {x : String} {t : Ty} {v : Expr} (bound : s.binding? = some (x, t, v)) :
    s.used = v.used := by
  obtain ⟨sp, xs, r, rfl, -⟩ := Stmt.eq_bind bound
  exact List.append_nil _

/-- A literal uses what the values of its temporaries use. -/
theorem temporaries_used {l : Layout} {v : Expr} {struct : String} {fields : List FieldInit}
    (isLiteral : v.literal? = some (struct, fields)) {ts : List Temporary}
    (fits : List.Forall₂ (Temporary.Fits l) fields ts) {k : String} : k ∈ v.used ↔ ∃ t ∈ ts, k ∈ t.value.used := by
  rw [literal_used isLiteral]
  clear isLiteral
  induction fits with
  | nil => simp
  | cons here _ ih =>
    simp only [List.mem_cons, or_and_right, exists_or, exists_eq_left, ih, expr_used here.value]
    rfl

/-- What the code of a site uses besides what its statement uses are no keywords. -/
theorem site_used {f : File} {isProgram : Bool} (valid : f.Valid isProgram) {name : String} {u : CUnit}
    (lowered : f.lower name = .ok u) {ls : Layouts} (laid : layouts [] f.items = .ok ls) {site : Site}
    (member : site ∈ f.sites) {k : String} (keyword : k ∈ Check.cKeywords) :
    k ∈ C.usedAt (ownCode ls site) ↔ k ∈ site.stmt.used := by
  have other {n : String} (free : FreeName n) : k ≠ n := fun same => free.not_keyword (same ▸ keyword)
  obtain ⟨run, _, _, ls', _, _, _, _, -, -, -, laid', made, -⟩ := exists_counterpart lowered member
  cases Except.ok.inj (laid.symm.trans laid')
  cases bound : site.stmt.binding? with
  | none => rw [unbound_used made bound]
  | some binding =>
    obtain ⟨x, t, v⟩ := binding
    have apart : k ≠ x := other ((valid.stmt member).name x t v bound)
    rw [binding_used bound, ownCode_bound site made (by rw [bound]; rfl)]
    cases isLiteral : v.literal? with
    | none =>
      rw [stmt_of_binding bound] at made
      rcases binding_cases made with ⟨T, c, -, -, valued, rfl⟩ | ⟨_, _, _, _, _, _, isLiteral', -⟩
      · have uses : C.usedAt (codeSites site.scope [.var x T, C.set (.ident x) c]) = x :: c.used := by
          rw [C.flat_used (by simp [C.set, CStmt.sites])]
          exact (List.append_nil _).trans (C.set_used _ _)
        rw [uses, List.mem_cons, expr_used valued, or_iff_right apart]
        rfl
      · cases isLiteral.symm.trans isLiteral'
    | some literal =>
      obtain ⟨struct, fields⟩ := literal
      obtain ⟨decl, members, ts, isItem, -, -, code, _, _, ls', _, _, _, _, -, -, -, laid', made', -⟩ :=
        literal_code valid lowered member bound isLiteral
      cases Except.ok.inj (laid.symm.trans laid')
      cases Except.ok.inj (made.symm.trans made')
      have field : k ∉ decl.fields.map (·.name) := by
        intro inside
        obtain ⟨q, isField, same⟩ := List.mem_map.mp inside
        exact other ((valid.structs decl isItem).fieldNames q isField) same.symm
      have temporary : ∀ t ∈ ts, k ≠ t.name := by
        rintro t inside rfl
        have given := List.mem_map_of_mem (f := (·.name)) inside
        rw [fits_names code.fits] at given
        exact field (code.permuted.mem_iff.mp given)
      have callee : k ≠ constructorName decl.name := by
        rintro rfl
        exact constructorName_not_keyword _ keyword
      rw [literal_code_used, params_names code.made, temporaries_used isLiteral code.fits]
      simp only [List.mem_append, List.mem_flatMap, List.mem_cons, apart, callee, field, or_false]
      exact exists_congr fun t => and_congr_right fun inside => or_iff_right (temporary t inside)

/-! ## Declarations -/

theorem Layout.construction_used (l : Layout) : l.construction.flatMap CStmt.used =
    [l.object, allocator, C.collector] ++ l.members.flatMap (fun m => [m.name, l.object, m.name]) ++ [l.object] := by
  have stores : (l.members.map fun m => C.set (.member (.ident l.object) .indirect m.name) (.ident m.name)).flatMap
      CStmt.used = l.members.flatMap fun m => [m.name, l.object, m.name] := by
    rw [List.flatMap_map]
    rfl
  rw [Layout.construction, List.flatMap_append, List.flatMap_cons, List.flatMap_cons, stores]
  rfl

/-- A constructor uses no keyword. -/
theorem constructor_used {l : Layout} (free : ∀ m ∈ l.members, FreeName m.name) : ∀ k ∈ (constructor l).used,
    k ∉ Check.cKeywords := by
  have flat : ∀ s ∈ l.construction, ∀ scope, s.sites scope = [] := by
    intro s inside scope
    simp only [Layout.construction, List.mem_cons, List.mem_append, List.mem_map, List.not_mem_nil, or_false] at inside
    rcases inside with (rfl | rfl | ⟨m, -, rfl⟩) | rfl <;> rfl
  have object : l.object ∉ Check.cKeywords := localName_not_keyword _
  have runtime : allocator ∉ Check.cKeywords ∧ C.collector ∉ Check.cKeywords := by decide
  rw [constructor_of_free free, Decl.used, Option.getD_some, C.flat_used flat, Layout.construction_used]
  simp only [List.forall_mem_append, List.forall_mem_cons, List.forall_mem_flatMap]
  refine ⟨⟨⟨object, runtime.1, runtime.2, by simp⟩, ?_⟩, object, by simp⟩
  intro m inside
  have member := (free m inside).not_keyword
  exact ⟨member, object, member, by simp⟩

/-- The declaration of an item uses the keywords that the item uses. -/
theorem item_used {f : File} {isProgram : Bool} (valid : f.Valid isProgram) {name : String} {u : CUnit}
    (lowered : f.lower name = .ok u) {ls : Layouts} (laid : layouts [] f.items = .ok ls) {i : Item}
    (member : i ∈ f.items) {d : Decl} (made : item ls i = .ok d) {k : String} (keyword : k ∈ Check.cKeywords) :
    k ∈ d.used ↔ k ∈ i.used := by
  cases i with
  | fn e =>
    obtain ⟨params, ret, inner, names, innerOk, rfl⟩ := item_fn_ok made
    rw [Decl.used, Option.getD_some, fn_sites names innerOk, C.usedAt, List.flatMap_assoc, Item.used, List.mem_flatMap,
      List.mem_flatMap]
    refine exists_congr fun site => and_congr_right fun inside => ?_
    exact site_used valid lowered laid (mem_fileSites.mpr ⟨e, member, inside⟩) keyword
  | struct e =>
    cases made
    rfl
  | absent _ | hollow _ _ => cases made

end Lower

/-! ## Keywords -/

/-- The locals and functions of a valid file have no keyword as their name. -/
theorem File.Valid.keyword_undeclared {f : File} {isProgram : Bool} (valid : f.Valid isProgram) {site : Site}
    (member : site ∈ f.sites) {k : String} (keyword : k ∈ Check.cKeywords) : f.referent? site.scope k = none := by
  have hidden : k ∉ site.scope := fun visible => (valid.scope_free member visible).not_keyword keyword
  rw [File.referent?, level_eq_none hidden, Option.map_eq_none_iff, List.findIdx?_eq_none_iff]
  intro i inside
  cases i with
  | fn d =>
    rw [Item.isFn, beq_eq_false_iff_ne]
    rintro rfl
    by_cases entry : d.name = "main"
    · rw [entry] at keyword
      exact absurd keyword (by decide)
    · exact ((valid.fns d inside).name entry).not_keyword keyword
  | _ => rfl

/-- The expressions in the unit of an accepted file use exactly the keywords of C that those of the file
    use, as identifiers or as members. In the file such an identifier refers to nothing. -/
theorem keyword_used_iff (file : Nat) (content : Bytes) (tree : File) (isProgram : Bool) (name : String)
    (parsed : parse (lexemes file content) = .ok tree) (accepted : (tree.check isProgram).errors = 0) :
    ∃ u, tree.lower name = .ok u ∧ ∀ k ∈ Check.cKeywords, (k ∈ u.used ↔ k ∈ tree.used) ∧
      ∀ site ∈ tree.sites, tree.referent? site.scope k = none := by
  obtain ⟨valid, u, lowered⟩ := lower_of_accepted parsed accepted name
  obtain ⟨ls, decls, unit⟩ := Lower.unit_cases lowered
  refine ⟨u, lowered, ?_⟩
  intro k keyword
  refine ⟨?_, fun site member => valid.keyword_undeclared member keyword⟩
  have constructors : ∀ d ∈ ls.map Lower.constructor, k ∉ d.used := by
    intro d inside uses
    obtain ⟨l, isLayout, rfl⟩ := List.mem_map.mp inside
    obtain ⟨i, atLayout⟩ := List.getElem?_of_mem isLayout
    obtain ⟨e, atStruct, laid⟩ := Lower.forall₂_at unit.structs.flip atLayout
    have isItem := Check.mem_structs.mp (List.mem_of_getElem? atStruct)
    exact Lower.constructor_used (laid.free (valid.structs e isItem)) k uses keyword
  rw [C.CUnit.used, unit.decls, List.mem_flatMap, File.used, List.mem_flatMap]
  constructor
  · rintro ⟨d, inside, uses⟩
    rcases List.mem_append.mp inside with ofItem | ofStruct
    · obtain ⟨j, atDecl⟩ := List.getElem?_of_mem ofItem
      obtain ⟨i, atItem, made⟩ := Lower.forall₂_at unit.items.flip atDecl
      have member := List.mem_of_getElem? atItem
      exact ⟨i, member, (Lower.item_used valid lowered unit.layouts member made keyword).mp uses⟩
    · exact absurd uses (constructors d ofStruct)
  · rintro ⟨i, member, uses⟩
    obtain ⟨j, atItem⟩ := List.getElem?_of_mem member
    obtain ⟨d, atDecl, made⟩ := Lower.forall₂_at unit.items atItem
    refine ⟨d, List.mem_append_left _ (List.mem_of_getElem? atDecl), ?_⟩
    exact (Lower.item_used valid lowered unit.layouts member made keyword).mpr uses

/-- The literal of the example uses no keyword, nor does its unit. -/
theorem keyword_used_swapped : ∃ tree u, parse (lexemes 0 swapped) = .ok tree ∧ (tree.check true).errors = 0 ∧
    tree.lower "app" = .ok u ∧ ∀ k ∈ Check.cKeywords, k ∉ u.used := by
  have run : ((parse (lexemes 0 swapped)).toOption.map fun tree => ((tree.check true).errors, tree.used)) =
      some (0, ["x"]) := by
    rw [swapped]
    simp only [utf8_append]
    repeat rw [utf8_ofList]
    decide +kernel
  obtain ⟨tree, parsed, facts⟩ := Lower.ok_of_test run
  obtain ⟨accepted, used⟩ := Prod.mk.inj facts
  obtain ⟨u, lowered, each⟩ := keyword_used_iff 0 swapped tree true "app" parsed accepted
  refine ⟨tree, u, parsed, accepted, lowered, ?_⟩
  intro k keyword uses
  have mentioned := ((each k keyword).1).mp uses
  rw [used, List.mem_singleton] at mentioned
  rw [mentioned] at keyword
  exact absurd keyword (by decide)

/-- A function whose only statement calls an undeclared function with the name of a keyword. -/
def keywordCall : Bytes := utf8 "fun main() -> _: while(1)\n"

/-- The call reaches the unit, and its text there is that of an empty loop. -/
theorem keyword_called : ∃ tree u, parse (lexemes 0 keywordCall) = .ok tree ∧ (tree.check true).errors = 0 ∧
    tree.lower "app" = .ok u ∧ "while" ∈ Check.cKeywords ∧ "while" ∈ u.used ∧
    u.decls.map C.Decl.text = [utf8 "void pine_lang_main(void) \x7b\n    while(1);\n\x7d\n"] := by
  have run : ((parse (lexemes 0 keywordCall)).toOption.map fun tree => ((tree.check true).errors,
      (tree.lower "app").toOption.map fun u => (u.used, u.decls.map C.Decl.text))) =
      some (0, some (["while"], [utf8 "void pine_lang_main(void) \x7b\n    while(1);\n\x7d\n"])) := by
    rw [keywordCall, utf8_ofList, utf8_ofList]
    decide +kernel
  obtain ⟨tree, parsed, facts⟩ := Lower.ok_of_test run
  obtain ⟨accepted, code⟩ := Prod.mk.inj facts
  obtain ⟨u, lowered, texts⟩ := Lower.ok_of_test code
  obtain ⟨used, text⟩ := Prod.mk.inj texts
  exact ⟨tree, u, parsed, accepted, lowered, by decide, by rw [used]; exact List.mem_singleton_self _, text⟩

end PineLang
