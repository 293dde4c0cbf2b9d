import Mathlib.Data.List.Forall2
import PineLang.Cache.Store
import PineLang.Proofs.Complete
import PineLang.Proofs.Utf8

/-!
A complete file without violations can be lowered. Lowering and checking walk the tree apart from
each other; every fault of lowering is met either by completeness or by a rule. The two agree on the
structs of a file because both collect them in the order of their declarations (`layouts_ok`).
-/
namespace PineLang
namespace Lower
open Check (Scope Declared)

theorem mapM_ok {α β : Type} {f : α → Except LowerFault β} : ∀ {xs : List α},
    (∀ x ∈ xs, ∃ y, f x = .ok y) → ∃ ys, xs.mapM f = .ok ys
  | [], _ => ⟨[], rfl⟩
  | x :: xs, each => by
    obtain ⟨y, first⟩ := each x (List.mem_cons_self ..)
    obtain ⟨ys, rest⟩ := mapM_ok (fun x' member => each x' (List.mem_cons_of_mem x member))
    exact ⟨y :: ys, by rw [List.mapM_cons, first]; simp only [bind, Except.bind, rest]; rfl⟩

/-! ## Types -/

theorem ty_ok {t : Ty} (known : t.Known) : ∃ c, ty t = .ok c := by
  cases t with
  | other k => exact known.elim
  | _ => exact ⟨_, rfl⟩

theorem params_ok : ∀ {ps : List Param}, (∀ p ∈ ps, p.type.ty.Known) →
    ∃ cs, ps.mapM param = .ok cs ∧ cs.map (·.name) = ps.map (·.name)
  | [], _ => ⟨[], rfl, rfl⟩
  | p :: ps, known => by
    obtain ⟨c, first⟩ := ty_ok (known p (List.mem_cons_self ..))
    obtain ⟨cs, rest, names⟩ := params_ok (fun q member => known q (List.mem_cons_of_mem p member))
    refine ⟨⟨p.name, c⟩ :: cs, ?_, by simp [names]⟩
    rw [List.mapM_cons]
    simp only [param, first, bind, Except.bind, pure, Except.pure, rest]

/-! ## Expressions -/

theorem binaryOp_ok {op : BinaryOp} (known : op.Known) : ∃ c, binaryOp op = .ok c := by
  cases op with
  | other k => exact known.elim
  | _ => exact ⟨_, rfl⟩

theorem literal_ok {v : Literal} (known : v.Known) : ∃ c, literal v = .ok c := by
  cases v with
  | other k t => exact known.elim
  | _ => exact ⟨_, rfl⟩

mutual

/-- An expression that is not the value of a binding has no struct literal. -/
theorem expr_ok (scope : Scope) : ∀ (e : Expr), e.Complete → Check.exprRules scope e = [] → ∃ c, expr e = .ok c
  | .ident _ n, _, _ => ⟨_, rfl⟩
  | .lit _ v, complete, _ => literal_ok complete
  | .assign _ a b, complete, clean => by
    simp only [Check.exprRules, List.append_eq_nil_iff] at clean
    obtain ⟨left, leftOk⟩ := expr_ok scope a complete.1 clean.1
    obtain ⟨right, rightOk⟩ := expr_ok scope b complete.2 clean.2
    exact ⟨_, by simp only [expr, leftOk, rightOk, bind, Except.bind]; rfl⟩
  | .call _ f args, complete, clean => by
    simp only [Check.exprRules, List.append_eq_nil_iff] at clean
    obtain ⟨callee, calleeOk⟩ := expr_ok scope f complete.1 clean.1
    obtain ⟨cargs, argsOk⟩ := exprs_ok scope args complete.2 clean.2
    exact ⟨_, by simp only [expr, calleeOk, argsOk, bind, Except.bind]; rfl⟩
  | .member _ t _ _, complete, clean => by
    obtain ⟨target, targetOk⟩ := expr_ok scope t complete clean
    exact ⟨_, by simp only [expr, targetOk, bind, Except.bind]; rfl⟩
  | .unary _ _ x, complete, clean => by
    obtain ⟨operand, operandOk⟩ := expr_ok scope x complete clean
    exact ⟨_, by simp only [expr, operandOk, bind, Except.bind]; rfl⟩
  | .binary _ op a b, complete, clean => by
    simp only [Check.exprRules, List.append_eq_nil_iff] at clean
    obtain ⟨cop, opOk⟩ := binaryOp_ok complete.1
    obtain ⟨left, leftOk⟩ := expr_ok scope a complete.2.1 clean.1
    obtain ⟨right, rightOk⟩ := expr_ok scope b complete.2.2 clean.2
    exact ⟨_, by simp only [expr, opOk, leftOk, rightOk, bind, Except.bind]; rfl⟩
  | .group _ x, complete, clean => by
    obtain ⟨inner, innerOk⟩ := expr_ok scope x complete clean
    exact ⟨inner, by rw [expr, innerOk]⟩
  | .structLit _ _ _ _, _, clean => by simp [Check.exprRules] at clean
  | .absent _, complete, _ => complete.elim
  | .hollow _ _, complete, _ => complete.elim

theorem exprs_ok (scope : Scope) : ∀ (es : List Expr), exprsComplete es → Check.exprsRules scope es = [] →
    ∃ cs, exprs es = .ok cs
  | [], _, _ => ⟨[], rfl⟩
  | x :: xs, complete, clean => by
    simp only [Check.exprsRules, List.append_eq_nil_iff] at clean
    obtain ⟨y, first⟩ := expr_ok scope x complete.1 clean.1
    obtain ⟨ys, rest⟩ := exprs_ok scope xs complete.2 clean.2
    exact ⟨_, by simp only [exprs, first, rest, bind, Except.bind]; rfl⟩

end

/-! ## Struct literals -/

theorem memberType_ok {l : Layout} {field : String} (member : field ∈ l.members.map (·.name)) :
    ∃ t, l.memberType? field = some t := by
  obtain ⟨m, inside, rfl⟩ := List.mem_map.mp member
  have found : (l.members.reverse.find? (·.name == m.name)).isSome := by
    rw [List.find?_isSome]
    exact ⟨m, by simpa using inside, by simp⟩
  obtain ⟨m', same⟩ := Option.isSome_iff_exists.mp found
  exact ⟨m'.type, by rw [Layout.memberType?, same]; rfl⟩

/-- A field of a literal that breaks no rule is a field of the struct and is not yet given. -/
theorem fieldNameRule_nil {decl : StructDecl} {done : List String} {f : FieldInit}
    (clean : Check.fieldNameRule decl done f = []) :
    f.name ∈ decl.fields.map (·.name) ∧ done.contains f.name = false := by
  unfold Check.fieldNameRule at clean
  simp only at clean
  split at clean
  · simp at clean
  · next known =>
    split at clean
    · simp at clean
    · next fresh => exact ⟨by simpa using known, by simpa using fresh⟩

theorem temporaries_ok {scope : Scope} {decl : StructDecl} {l : Layout}
    (same : l.members.map (·.name) = decl.fields.map (·.name)) : ∀ (fs : List FieldInit) (done : List String),
    fieldsComplete fs → Check.fieldsRules scope decl done fs = [] →
      ∃ cs, temporaries l done fs = .ok (cs, done ++ fs.map (·.name))
  | [], done, _, _ => ⟨[], by simp [temporaries]⟩
  | .mk f span v :: fs, done, complete, clean => by
    simp only [Check.fieldsRules, List.append_eq_nil_iff] at clean
    obtain ⟨⟨⟨named, valued⟩, _⟩, rest⟩ := clean
    obtain ⟨member, fresh⟩ := fieldNameRule_nil named
    obtain ⟨t, typed⟩ := memberType_ok (l := l) (by rw [same]; exact member)
    obtain ⟨value, valueOk⟩ := expr_ok scope v complete.1 valued
    obtain ⟨cs, more⟩ := temporaries_ok same fs (done ++ [f]) complete.2 rest
    refine ⟨.var f t :: C.set (.ident f) value :: cs, ?_⟩
    have typed' : l.memberType? f = some t := typed
    have fresh' : done.contains f = false := fresh
    simp only [temporaries, typed', fresh', valueOk, more, bind, Except.bind]
    simp [pure, Except.pure, FieldInit.name]

theorem constructorArgs_ok {l : Layout} {done : List String}
    (given : ∀ m ∈ l.members, done.contains m.name = true) : ∃ args, constructorArgs l done = .ok args :=
  mapM_ok fun m member => ⟨.ident m.name, by rw [given m member]; rfl⟩

/-- Every struct of the scope has a layout with the same fields. -/
def Agrees (scope : Scope) (ls : Layouts) : Prop :=
  ∀ n decl, scope.struct? n = some decl →
    ∃ l, ls.find n = some l ∧ l.members.map (·.name) = decl.fields.map (·.name)

theorem structInit_ok {scope : Scope} {ls : Layouts} (agrees : Agrees scope ls) {name n : String}
    {nameSpan structSpan : Span} {fields : List FieldInit} (declared : (scope.struct? n).isSome)
    (complete : fieldsComplete fields)
    (clean : Check.literalRules scope name nameSpan n structSpan fields = []) :
    ∃ cs, structInit ls name n fields = .ok cs := by
  obtain ⟨decl, found⟩ := Option.isSome_iff_exists.mp declared
  obtain ⟨l, laid, same⟩ := agrees n decl found
  simp only [Check.literalRules, found, List.append_eq_nil_iff] at clean
  obtain ⟨⟨each, gaps⟩, _⟩ := clean
  have given : ∀ f ∈ decl.fields.map (·.name), (fields.map (·.name)).contains f = true := by
    intro f member
    split at gaps
    · next none => simpa using List.filter_eq_nil_iff.mp (List.isEmpty_iff.mp none) f member
    · cases gaps
  obtain ⟨temps, temporariesOk⟩ := temporaries_ok same fields [] complete each
  have set : ∀ m ∈ l.members, ([] ++ fields.map FieldInit.name).contains m.name = true := by
    intro m member
    refine given m.name ?_
    rw [← same]
    exact List.mem_map_of_mem member
  obtain ⟨args, argsOk⟩ := constructorArgs_ok set
  exact ⟨_, by simp only [structInit, laid, temporariesOk, argsOk, bind, Except.bind]; rfl⟩

/-! ## Statements -/

theorem binding_ok {scope : Scope} {ls : Layouts} (agrees : Agrees scope ls) {name : String} {nameSpan : Span}
    {type : TypeRef} (known : type.ty.Known) (typed : Check.typeRule scope type = []) {v : Expr}
    (complete : v.Complete) (clean : Check.initRules scope name nameSpan type v = []) :
    ∃ cs, binding ls name type.ty v = .ok cs := by
  obtain ⟨t, typeOk⟩ := ty_ok known
  have plain (notLiteral : Check.exprRules scope v = []) :
      ∃ cs, (do let t ← ty type.ty; let e ← expr v; return [C.CStmt.var name t, C.set (.ident name) e]) = .ok cs := by
    obtain ⟨e, valueOk⟩ := expr_ok scope v complete notLiteral
    exact ⟨_, by simp only [typeOk, valueOk, bind, Except.bind]; rfl⟩
  cases v with
  | structLit span n structSpan fields =>
    simp only [Check.initRules] at clean
    split at clean
    · next same =>
      have declared : (scope.struct? n).isSome := by
        simp only [Check.typeRule, same, Check.structRule] at typed
        split at typed
        · assumption
        · cases typed
      exact structInit_ok agrees declared complete clean
    · cases clean
  | absent _ => exact complete.elim
  | hollow _ _ => exact complete.elim
  | _ => exact plain clean

mutual

theorem stmt_ok {scope : Scope} {ls : Layouts} (agrees : Agrees scope ls) : ∀ (s : Stmt), s.Complete →
    Check.stmtRules scope s = [] → ∃ cs, stmt ls s = .ok cs
  | .block _ ss, complete, clean => by
    obtain ⟨inner, innerOk⟩ := stmts_ok agrees ss complete clean
    exact ⟨_, by simp only [stmt, innerOk, bind, Except.bind]; rfl⟩
  | .expr _ x, complete, clean => by
    obtain ⟨value, valueOk⟩ := expr_ok scope x complete clean
    exact ⟨_, by simp only [stmt, valueOk, bind, Except.bind]; rfl⟩
  | .cond _ t yes no, complete, clean => by
    simp only [Check.stmtRules, List.append_eq_nil_iff] at clean
    obtain ⟨test, testOk⟩ := expr_ok scope t complete.1 clean.1.1
    obtain ⟨first, firstOk⟩ := body_ok agrees yes complete.2.1 clean.1.2
    obtain ⟨second, secondOk⟩ := otherwise_ok agrees no complete.2.2 clean.2
    exact ⟨_, by simp only [stmt, testOk, firstOk, secondOk, bind, Except.bind]; rfl⟩
  | .ret _ none, _, _ => ⟨_, rfl⟩
  | .ret _ (some x), complete, clean => by
    obtain ⟨value, valueOk⟩ := expr_ok scope x complete clean
    exact ⟨_, by simp only [stmt, valueOk, bind, Except.bind]; rfl⟩
  | .brk _, _, _ => ⟨_, rfl⟩
  | .bind _ _ _ t v, complete, clean => by
    simp only [Check.stmtRules, List.append_eq_nil_iff] at clean
    exact binding_ok agrees complete.1 clean.1.2 complete.2 clean.2
  | .loop _ b, complete, clean => by
    obtain ⟨inner, innerOk⟩ := body_ok agrees b complete clean
    exact ⟨_, by simp only [stmt, innerOk, bind, Except.bind]; rfl⟩
  | .empty _, _, _ => ⟨_, rfl⟩
  | .absent _, complete, _ => complete.elim
  | .hollow _ _, complete, _ => complete.elim

theorem body_ok {scope : Scope} {ls : Layouts} (agrees : Agrees scope ls) : ∀ (b : Body), b.Complete →
    Check.bodyRules scope b = [] → ∃ cs, body ls b = .ok cs
  | .block _ ss, complete, clean => stmts_ok agrees ss complete clean
  | .stray _ _, complete, _ => complete.elim

theorem otherwise_ok {scope : Scope} {ls : Layouts} (agrees : Agrees scope ls) : ∀ (no : Option Body),
    elseComplete no → Check.elseRules scope no = [] → ∃ cs, otherwise ls no = .ok cs
  | none, _, _ => ⟨none, rfl⟩
  | some b, complete, clean => by
    obtain ⟨inner, innerOk⟩ := body_ok agrees b complete clean
    exact ⟨_, by simp only [otherwise, innerOk, bind, Except.bind]; rfl⟩

theorem stmts_ok {scope : Scope} {ls : Layouts} (agrees : Agrees scope ls) : ∀ (ss : List Stmt),
    stmtsComplete ss → Check.stmtsRules scope ss = [] → ∃ cs, stmts ls ss = .ok cs
  | [], _, _ => ⟨[], rfl⟩
  | s :: ss, complete, clean => by
    simp only [Check.stmtsRules, List.append_eq_nil_iff] at clean
    obtain ⟨first, firstOk⟩ := stmt_ok agrees s complete.1 clean.1
    obtain ⟨more, moreOk⟩ := stmts_ok agrees ss complete.2 clean.2
    exact ⟨_, by simp only [stmts, firstOk, moreOk, bind, Except.bind]; rfl⟩

end

/-! ## Declarations -/

/-- The layout of a struct. -/
def Fits (decl : StructDecl) (l : Layout) : Prop :=
  l.name = decl.name ∧ l.members.map (·.name) = decl.fields.map (·.name)

theorem find_fits {n : String} {ds : List StructDecl} {ls : Layouts} (fit : List.Forall₂ Fits ds ls) :
    ∀ {decl}, ds.find? (·.name == n) = some decl → ∃ l, ls.find n = some l ∧ Fits decl l := by
  induction fit with
  | nil => simp
  | @cons d l ds ls here _ ih =>
    intro decl found
    rw [List.find?_cons] at found
    simp only [Layouts.find, List.find?_cons, here.1]
    split at found
    · cases found
      exact ⟨l, rfl, here⟩
    · exact ih found

theorem agrees_of_fits {scope : Scope} {ls : Layouts} (fit : List.Forall₂ Fits scope.structs ls) : Agrees scope ls := by
  intro n decl found
  obtain ⟨l, laid, here⟩ := find_fits fit found
  exact ⟨l, laid, here.2⟩

/-- What has a layout has been declared. -/
def Placed (known : Declared) (ls : Layouts) : Prop :=
  ∀ l ∈ ls, l.name ∈ known.places.map (·.1)

/-- Declaring an item without a violation keeps its declaration. -/
theorem declare_fresh {known : Declared} {i : Item} (clean : (Check.declare known i).2 = []) :
    (Check.itemName i).1 ∉ known.places.map (·.1) ∧
      (Check.declare known i).1 = ⟨known.scope.add i, known.places ++ [Check.itemName i]⟩ := by
  unfold Check.declare at clean ⊢
  simp only at clean ⊢
  split at clean
  · next fresh =>
    refine ⟨?_, rfl⟩
    intro member
    obtain ⟨place, inside, same⟩ := List.mem_map.mp member
    exact List.find?_eq_none.mp fresh place inside (by simpa using same)
  · simp at clean

theorem layouts_ok : ∀ (items : List Item) (known : Declared) (ls : Layouts),
    (∀ i ∈ items, i.Complete) → (Check.declareAll known items).2 = [] →
      List.Forall₂ Fits known.scope.structs ls → Placed known ls →
      ∃ all, layouts ls items = .ok all ∧
        List.Forall₂ Fits (Check.declareAll known items).1.scope.structs all
  | [], known, ls, _, _, fit, _ => ⟨ls, rfl, fit⟩
  | i :: items, known, ls, complete, clean, fit, placed => by
    simp only [Check.declareAll, List.append_eq_nil_iff] at clean ⊢
    have here := complete i (List.mem_cons_self ..)
    have rest : ∀ j ∈ items, j.Complete := fun j member => complete j (List.mem_cons_of_mem i member)
    obtain ⟨fresh, next⟩ := declare_fresh clean.1
    rw [next] at clean ⊢
    have stays : Placed ⟨known.scope.add i, known.places ++ [Check.itemName i]⟩ ls := by
      intro l member
      have := placed l member
      simp only [List.map_append, List.mem_append]
      exact .inl this
    cases i with
    | fn d => exact layouts_ok items _ ls rest clean.2 fit stays
    | struct d =>
      obtain ⟨members, membersOk, names⟩ := params_ok here
      have unlaid : ls.find d.name = none := by
        rw [Layouts.find, List.find?_eq_none]
        intro l member
        have other : l.name ≠ d.name := by
          intro same
          refine fresh ?_
          rw [show (Check.itemName (.struct d)).1 = l.name from same.symm]
          exact placed l member
        simpa using other
      have fit' : List.Forall₂ Fits (known.scope.structs ++ [d]) (ls ++ [⟨d.name, members⟩]) :=
        List.rel_append fit (.cons ⟨rfl, names⟩ .nil)
      have placed' : Placed ⟨known.scope.add (.struct d), known.places ++ [(d.name, d.nameSpan)]⟩
          (ls ++ [⟨d.name, members⟩]) := by
        intro l member
        rcases List.mem_append.mp member with old | new
        · exact stays l old
        · rw [List.mem_singleton.mp new]
          simp
      obtain ⟨all, allOk, fits⟩ := layouts_ok items _ _ rest clean.2 fit' placed'
      refine ⟨all, ?_, fits⟩
      simp only [layouts, membersOk, unlaid, bind, Except.bind]
      exact allOk
    | absent _ => exact here.elim
    | hollow _ _ => exact here.elim

theorem item_ok {scope : Scope} {ls : Layouts} (agrees : Agrees scope ls) {i : Item} (complete : i.Complete)
    (clean : Check.itemRules scope i = []) : ∃ d, item ls i = .ok d := by
  cases i with
  | fn d =>
    simp only [Check.itemRules, List.append_eq_nil_iff] at clean
    obtain ⟨params, paramsOk, _⟩ := params_ok complete.1
    obtain ⟨ret, retOk⟩ := ty_ok complete.2.1
    obtain ⟨inner, innerOk⟩ := body_ok agrees d.body complete.2.2 clean.2
    exact ⟨_, by simp only [item, paramsOk, retOk, innerOk, bind, Except.bind]; rfl⟩
  | struct d => exact ⟨_, rfl⟩
  | absent _ => exact complete.elim
  | hollow _ _ => exact complete.elim

end Lower

theorem File.lower_ok {f : File} (complete : f.Complete) {isProgram : Bool}
    (clean : (f.check isProgram).found = []) (name : String) : ∃ u, f.lower name = .ok u := by
  simp only [f.check_found, List.append_eq_nil_iff, List.flatMap_eq_nil_iff] at clean
  obtain ⟨⟨declared, each⟩, _⟩ := clean
  obtain ⟨ls, laid, fit⟩ := Lower.layouts_ok f.items {} [] complete declared .nil (by simp [Lower.Placed])
  obtain ⟨decls, declsOk⟩ := Lower.mapM_ok (f := Lower.item ls) (fun i member =>
    Lower.item_ok (Lower.agrees_of_fits fit) (complete i member) (each i member))
  exact ⟨_, by simp only [File.lower, laid, declsOk, bind, Except.bind]; rfl⟩

/-! ## Compilation -/

/-- The tree that a compilation goes on with is a parsed one. -/
theorem SourceFile.parse_of_ok? {f : SourceFile} {limit : Nat} {cancelled : Bool} {tree : File}
    (ok : (f.parse limit cancelled).ok? = some tree) :
    PineLang.parse (lexemes f.id f.content) cancelled = .ok tree := by
  unfold Parsed.ok? SourceFile.parse at ok
  split at ok
  · cases ok
  · cases read : PineLang.parse (lexemes f.id f.content) cancelled with
    | ok parsed =>
      simp only [read, Option.some.injEq] at ok
      rw [ok]
    | error e => simp [read] at ok

theorem SourceFile.compile_ne_lower (f : SourceFile) (path : String) (o : CompileOptions) (p : String)
    (fault : LowerFault) : (f.compile path o).outcome ≠ .error (.lower p fault) := by
  unfold SourceFile.compile
  simp only
  split
  · simp
  · split
    · simp
    · next tree parsed =>
      split
      · simp
      · next passed =>
        have clean : (tree.check o.isProgram).found = [] := (tree.error?_check_eq_none _).mp passed
        obtain ⟨u, lowered⟩ :=
          File.lower_ok (complete_of_parse (SourceFile.parse_of_ok? parsed)) clean (unitName path)
        rw [lowered]
        simp

/-- A parsed file without violations has a C unit. So no compilation, cached or not, ends with a tree
    that cannot be lowered. -/
theorem lower_of_check :
    (∀ (file : Nat) (content : Bytes) (tree : File) (isProgram : Bool) (name : String),
      parse (lexemes file content) = .ok tree → (tree.check isProgram).found = [] →
        ∃ u, tree.lower name = .ok u) ∧
    ∀ (f : SourceFile) (path : String) (o : CompileOptions) (cache : Option Cache.Store) (disk : Disk)
      (p : String) (fault : LowerFault),
      (f.compileCached path o cache disk).1.outcome ≠ .error (.lower p fault) := by
  refine ⟨?_, ?_⟩
  · intro file content tree isProgram name parsed clean
    exact File.lower_ok (complete_of_parse parsed) clean name
  · intro f path o cache disk p fault
    unfold SourceFile.compileCached
    split
    · simp
    · simp only
      split
      · next g compiled => simp [compiled]
      · exact f.compile_ne_lower path o p fault

/-- A struct that is used before its declaration, by a literal in an order of its own. -/
def forwardUse : Bytes :=
  utf8 "fun main() -> _:\n    let p: Point = Point \x7b y: 1, x: 2 \x7d\ntype Point \x7b x: i64, y: i64 \x7d\n"

theorem lower_forwardUse : ∃ tree, parse (lexemes 0 forwardUse) = .ok tree ∧ (tree.check true).found = [] ∧
    ∃ u, tree.lower "main" = .ok u := by
  have clean : ((parse (lexemes 0 forwardUse)).toOption.map fun tree => (tree.check true).found) = some [] := by
    rw [forwardUse, utf8_ofList]
    decide +kernel
  cases parsed : parse (lexemes 0 forwardUse) with
  | ok tree =>
    have none : (tree.check true).found = [] := by simpa [parsed, Except.toOption] using clean
    exact ⟨tree, rfl, none, lower_of_check.1 0 forwardUse tree true "main" parsed none⟩
  | error e => simp [parsed, Except.toOption] at clean

end PineLang
