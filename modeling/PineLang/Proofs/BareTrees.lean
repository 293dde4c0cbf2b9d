import PineLang.Check.Rules
import PineLang.Lower
import PineLang.Proofs.Relocation

/-!
What a tree means does not depend on its spans: the checker finds the same violations in a tree without them, up to where
they are (`File.check_bare`), and the tree is lowered to the same unit (`File.lower_bare`).
-/
namespace PineLang

/-! ## Lowering -/

namespace Lower

mutual

theorem expr_bare : ∀ e : Expr, expr e.bare = expr e
  | .ident _ _ => rfl
  | .lit _ _ => rfl
  | .assign _ a b => by rw [Expr.bare, expr, expr, expr_bare a, expr_bare b]
  | .call _ f args => by rw [Expr.bare, expr, expr, exprs_bare args, expr_bare f]
  | .member _ t _ _ => by rw [Expr.bare, expr, expr, expr_bare t]
  | .unary _ _ x => by rw [Expr.bare, expr, expr, expr_bare x]
  | .binary _ _ a b => by rw [Expr.bare, expr, expr, expr_bare a, expr_bare b]
  | .group _ x => by rw [Expr.bare, expr, expr, expr_bare x]
  | .structLit _ _ _ _ => rfl
  | .absent _ => rfl
  | .hollow _ _ => rfl

theorem exprs_bare : ∀ es : List Expr, exprs (bareExprs es) = exprs es
  | [] => rfl
  | e :: es => by rw [bareExprs, exprs, exprs, expr_bare e, exprs_bare es]

end

theorem temporaries_bare (layout : Layout) : ∀ (fs : List FieldInit) (done : List String),
    temporaries layout done (bareFields fs) = temporaries layout done fs
  | [], _ => rfl
  | .mk f _ v :: fs, done => by
    rw [bareFields, FieldInit.bare, temporaries, temporaries, expr_bare v]
    simp only [temporaries_bare layout fs]

theorem binding_bare (ls : Layouts) (name : String) (type : Ty) (e : Expr) :
    binding ls name type e.bare = binding ls name type e := by
  have plain (value : Expr) (same : expr value.bare = expr value) : (do
      let t ← ty type
      let v ← expr value.bare
      return [C.CStmt.var name t, C.set (.ident name) v] : Except LowerFault (List C.CStmt)) = (do
      let t ← ty type
      let v ← expr value
      return [C.CStmt.var name t, C.set (.ident name) v]) := by rw [same]
  cases e with
  | structLit _ s _ fs => simp only [Expr.bare, binding, structInit, temporaries_bare]
  | hollow _ k =>
    by_cases other : k = 8
    · rw [other]
      rfl
    · simp [Expr.bare, binding, other, expr]
  | absent _ => rfl
  | ident _ _ => rfl
  | lit _ _ => rfl
  | _ => exact plain _ (expr_bare _)

mutual

theorem stmt_bare (ls : Layouts) : ∀ s : Stmt, stmt ls s.bare = stmt ls s
  | .block _ ss => by rw [Stmt.bare, stmt, stmt, stmts_bare ls ss]
  | .expr _ x => by rw [Stmt.bare, stmt, stmt, expr_bare]
  | .cond _ t yes no => by rw [Stmt.bare, stmt, stmt, expr_bare, body_bare ls yes, otherwise_bare ls no]
  | .ret _ none => rfl
  | .ret _ (some x) => by rw [Stmt.bare, Option.map_some, stmt, stmt, expr_bare]
  | .brk _ => rfl
  | .empty _ => rfl
  | .loop _ b => by rw [Stmt.bare, stmt, stmt, body_bare ls b]
  | .bind _ _ _ _ v => by rw [Stmt.bare, stmt, stmt, binding_bare]; rfl
  | .absent _ => rfl
  | .hollow _ _ => rfl

theorem body_bare (ls : Layouts) : ∀ b : Body, body ls b.bare = body ls b
  | .block _ ss => by rw [Body.bare, body, body, stmts_bare ls ss]
  | .stray id (.hollow _ 0) => rfl
  | .stray id (.hollow _ (_ + 1)) => rfl
  | .stray id (.block _ _) | .stray id (.expr _ _) | .stray id (.cond _ _ _ _) | .stray id (.ret _ _)
  | .stray id (.brk _) | .stray id (.bind _ _ _ _ _) | .stray id (.loop _ _) | .stray id (.empty _)
  | .stray id (.absent _) => rfl

theorem otherwise_bare (ls : Layouts) : ∀ no : Option Body, otherwise ls (bareElse no) = otherwise ls no
  | none => rfl
  | some b => by rw [bareElse, otherwise, otherwise, body_bare ls b]

theorem stmts_bare (ls : Layouts) : ∀ ss : List Stmt, stmts ls (bareStmts ss) = stmts ls ss
  | [] => rfl
  | s :: ss => by rw [bareStmts, stmts, stmts, stmt_bare ls s, stmts_bare ls ss]

end

theorem params_bare (ps : List Param) : (ps.map Param.bare).mapM param = ps.mapM param := by
  induction ps with
  | nil => rfl
  | cons p ps ih => rw [List.map_cons, List.mapM_cons, List.mapM_cons, ih]; rfl

theorem layouts_bare : ∀ (is : List Item) (known : Layouts), layouts known (is.map Item.bare) = layouts known is
  | [], _ => rfl
  | .struct d :: is, known => by
    simp only [List.map_cons, Item.bare, layouts, params_bare, layouts_bare is]
  | .fn _ :: is, known => layouts_bare is known
  | .absent _ :: is, known => layouts_bare is known
  | .hollow _ 1 :: _, _ => rfl
  | .hollow _ 0 :: is, known => layouts_bare is known
  | .hollow _ (_ + 2) :: is, known => layouts_bare is known

theorem item_bare (ls : Layouts) : ∀ i : Item, item ls i.bare = item ls i
  | .fn d => by simp only [Item.bare, item, params_bare, body_bare]; rfl
  | .struct _ => rfl
  | .absent _ => rfl
  | .hollow _ _ => rfl

end Lower

theorem File.lower_bare (f : File) (name : String) : f.bare.lower name = f.lower name := by
  have items (ls : Lower.Layouts) : (f.items.map Item.bare).mapM (Lower.item ls) = f.items.mapM (Lower.item ls) := by
    induction f.items with
    | nil => rfl
    | cons i is ih => rw [List.map_cons, List.mapM_cons, List.mapM_cons, Lower.item_bare, ih]
  simp only [File.lower, File.bare, Lower.layouts_bare, items]

/-! ## Checking -/

/-- A struct without its spans. -/
def StructDecl.bare (d : StructDecl) : StructDecl := ⟨d.name, {}, d.fields.map Param.bare, {}⟩

/-- A function without its spans. -/
def FnDecl.bare (d : FnDecl) : FnDecl := ⟨d.name, {}, d.params.map Param.bare, d.ret.bare, d.body.bare, {}⟩

namespace Check

/-- Which rules are violated, in order. -/
def codes (ds : List Diagnostic) : List Code := ds.map (·.code)

/-- A scope without spans. -/
def Scope.bare (s : Scope) : Scope := ⟨s.structs.map StructDecl.bare, s.fns.map FnDecl.bare⟩

@[simp] theorem codes_nil : codes [] = [] := rfl

@[simp] theorem codes_cons (d : Diagnostic) (ds : List Diagnostic) : codes (d :: ds) = d.code :: codes ds := rfl

@[simp] theorem codes_append (ds es : List Diagnostic) : codes (ds ++ es) = codes ds ++ codes es := List.map_append

@[simp] theorem code_ofError (c : Code) (span : Span) (message : String) (notes : List Note) :
    (Diagnostic.ofError c span message notes).code = c := rfl

theorem struct?_bare (s : Scope) (n : String) : s.bare.struct? n = (s.struct? n).map StructDecl.bare := by
  simp only [Scope.struct?, Scope.bare, List.find?_map]
  rfl

theorem fn?_bare (s : Scope) (n : String) : s.bare.fn? n = (s.fn? n).map FnDecl.bare := by
  simp only [Scope.fn?, Scope.bare, List.find?_map]
  rfl

theorem nameRule_bare (name : String) (role : Role) (span span' : Span) :
    codes (nameRule name span role) = codes (nameRule name span' role) := by
  unfold nameRule
  split
  · rfl
  · split <;> rfl

theorem structRule_bare (s : Scope) (n : String) (span : Span) :
    codes (structRule s.bare n {}) = codes (structRule s n span) := by
  simp only [structRule, struct?_bare, Option.isSome_map]
  split <;> rfl

theorem typeRule_bare (s : Scope) (t : TypeRef) : codes (typeRule s.bare t.bare) = codes (typeRule s t) := by
  simp only [typeRule, TypeRef.bare]
  split
  · exact structRule_bare ..
  · rfl

mutual

theorem exprRules_bare (s : Scope) : ∀ e : Expr, codes (exprRules s.bare e.bare) = codes (exprRules s e)
  | .ident _ _ => rfl
  | .lit _ _ => rfl
  | .assign _ a b => by simp only [Expr.bare, exprRules, codes_append, exprRules_bare s a, exprRules_bare s b]
  | .call _ f args => by simp only [Expr.bare, exprRules, codes_append, exprRules_bare s f, exprsRules_bare s args]
  | .member _ t _ _ => by simp only [Expr.bare, exprRules, exprRules_bare s t]
  | .unary _ _ x => by simp only [Expr.bare, exprRules, exprRules_bare s x]
  | .binary _ _ a b => by simp only [Expr.bare, exprRules, codes_append, exprRules_bare s a, exprRules_bare s b]
  | .group _ x => by simp only [Expr.bare, exprRules, exprRules_bare s x]
  | .structLit _ n ns fs => by
    simp only [Expr.bare, exprRules, codes_cons, codes_append, structRule_bare s n ns, valuesRules_bare s fs]
    rfl
  | .absent _ => rfl
  | .hollow _ _ => rfl

theorem exprsRules_bare (s : Scope) : ∀ es : List Expr, codes (exprsRules s.bare (bareExprs es)) = codes (exprsRules s es)
  | [] => rfl
  | e :: es => by simp only [bareExprs, exprsRules, codes_append, exprRules_bare s e, exprsRules_bare s es]

theorem valueRules_bare (s : Scope) : ∀ f : FieldInit, codes (valueRules s.bare f.bare) = codes (valueRules s f)
  | .mk _ _ v => exprRules_bare s v

theorem valuesRules_bare (s : Scope) : ∀ fs : List FieldInit,
    codes (valuesRules s.bare (bareFields fs)) = codes (valuesRules s fs)
  | [] => rfl
  | f :: fs => by simp only [bareFields, valuesRules, codes_append, valueRules_bare s f, valuesRules_bare s fs]

end

mutual

theorem identsIn_bare : ∀ e : Expr, (identsIn e.bare).map (·.1) = (identsIn e).map (·.1)
  | .ident _ _ => rfl
  | .lit _ _ => rfl
  | .assign _ a b => by simp only [Expr.bare, identsIn, List.map_append, identsIn_bare a, identsIn_bare b]
  | .call _ f args => by simp only [Expr.bare, identsIn, List.map_append, identsIn_bare f, identsInAll_bare args]
  | .member _ t _ _ => by simp only [Expr.bare, identsIn, identsIn_bare t]
  | .unary _ _ x => by simp only [Expr.bare, identsIn, identsIn_bare x]
  | .binary _ _ a b => by simp only [Expr.bare, identsIn, List.map_append, identsIn_bare a, identsIn_bare b]
  | .group _ x => by simp only [Expr.bare, identsIn, identsIn_bare x]
  | .structLit _ _ _ fs => by simp only [Expr.bare, identsIn, identsInFields_bare fs]
  | .absent _ => rfl
  | .hollow _ _ => rfl

theorem identsInAll_bare : ∀ es : List Expr, (identsInAll (bareExprs es)).map (·.1) = (identsInAll es).map (·.1)
  | [] => rfl
  | e :: es => by simp only [bareExprs, identsInAll, List.map_append, identsIn_bare e, identsInAll_bare es]

theorem identsInField_bare : ∀ f : FieldInit, (identsInField f.bare).map (·.1) = (identsInField f).map (·.1)
  | .mk _ _ v => identsIn_bare v

theorem identsInFields_bare : ∀ fs : List FieldInit,
    (identsInFields (bareFields fs)).map (·.1) = (identsInFields fs).map (·.1)
  | [] => rfl
  | f :: fs => by simp only [bareFields, identsInFields, List.map_append, identsInField_bare f, identsInFields_bare fs]

end

theorem name_bare (f : FieldInit) : f.bare.name = f.name := by cases f; rfl

theorem value_bare (f : FieldInit) : f.bare.value = f.value.bare := by cases f; rfl

theorem bareFields_eq : ∀ fs : List FieldInit, bareFields fs = fs.map FieldInit.bare
  | [] => rfl
  | f :: fs => congrArg (f.bare :: ·) (bareFields_eq fs)

/-- A find by name says the same of lists with the same names. -/
theorem find?_isSome_of_names {p : String → Bool} {xs ys : List (String × Span)} (same : xs.map (·.1) = ys.map (·.1)) :
    (xs.find? fun x => p x.1).isSome = (ys.find? fun y => p y.1).isSome := by
  have any (zs : List (String × Span)) : (zs.find? fun z => p z.1).isSome = (zs.map (·.1)).any p := by
    rw [List.isSome_find?, List.any_map]
    rfl
  rw [any, any, same]

theorem shadowingRule_bare (temps : List String) (f : FieldInit) :
    codes (shadowingRule temps f.bare) = codes (shadowingRule temps f) := by
  have found := find?_isSome_of_names (p := temps.contains) (identsIn_bare f.value)
  unfold shadowingRule
  rw [value_bare]
  cases bare : (identsIn f.value.bare).find? fun x => temps.contains x.1 with
  | none =>
    cases own : (identsIn f.value).find? fun x => temps.contains x.1 with
    | none => rfl
    | some _ => rw [bare, own] at found; cases found
  | some _ =>
    cases own : (identsIn f.value).find? fun x => temps.contains x.1 with
    | none => rw [bare, own] at found; cases found
    | some _ => rfl

theorem fields_bare (d : StructDecl) : d.bare.fields.map (·.name) = d.fields.map (·.name) := by
  simp only [StructDecl.bare, List.map_map]
  rfl

theorem fieldNameRule_bare (d : StructDecl) (temps : List String) (f : FieldInit) :
    codes (fieldNameRule d.bare temps f.bare) = codes (fieldNameRule d temps f) := by
  simp only [fieldNameRule, fields_bare, name_bare]
  split
  · rfl
  · split <;> rfl

theorem fieldsRules_bare (s : Scope) (d : StructDecl) : ∀ (fs : List FieldInit) (temps : List String),
    codes (fieldsRules s.bare d.bare temps (bareFields fs)) = codes (fieldsRules s d temps fs)
  | [], _ => rfl
  | f :: fs, temps => by
    simp only [bareFields, fieldsRules, codes_append, fieldNameRule_bare, name_bare, value_bare, exprRules_bare,
      shadowingRule_bare, fieldsRules_bare s d fs]

theorem literalRules_bare (s : Scope) (name struct : String) (nameSpan structSpan : Span) (fs : List FieldInit) :
    codes (literalRules s.bare name {} struct {} (bareFields fs)) = codes (literalRules s name nameSpan struct structSpan fs) := by
  have names : (bareFields fs).map (·.name) = fs.map (·.name) := by
    rw [bareFields_eq, List.map_map]
    exact List.map_congr_left fun f _ => name_bare f
  simp only [literalRules, struct?_bare]
  cases s.struct? struct with
  | none => exact valuesRules_bare s fs
  | some d =>
    simp only [Option.map_some, codes_append, fieldsRules_bare, names, fields_bare]
    congr 1
    · congr 1
      split <;> rfl
    · split <;> rfl

theorem initRules_bare (s : Scope) (name : String) (nameSpan : Span) (t : TypeRef) (e : Expr) :
    codes (initRules s.bare name {} t.bare e.bare) = codes (initRules s name nameSpan t e) := by
  cases e with
  | structLit _ n ns fs =>
    rw [Expr.bare, initRules, initRules]
    by_cases declared : t.ty = .struct n
    · rw [if_pos declared, if_pos (show t.bare.ty = _ from declared)]
      exact literalRules_bare ..
    · rw [if_neg declared, if_neg (show ¬t.bare.ty = _ from declared), codes_cons, codes_cons, valuesRules_bare]
      rfl
  | ident _ _ => rfl
  | lit _ _ => rfl
  | absent _ => rfl
  | hollow _ _ => rfl
  | _ => exact exprRules_bare s _

mutual

theorem stmtRules_bare (s : Scope) : ∀ st : Stmt, codes (stmtRules s.bare st.bare) = codes (stmtRules s st)
  | .block _ ss => by simp only [Stmt.bare, stmtRules, stmtsRules_bare s ss]
  | .expr _ x => by simp only [Stmt.bare, stmtRules, exprRules_bare]
  | .cond _ t yes no => by
    simp only [Stmt.bare, stmtRules, codes_append, exprRules_bare, bodyRules_bare s yes, elseRules_bare s no]
  | .ret _ none => rfl
  | .ret _ (some x) => exprRules_bare s x
  | .brk _ => rfl
  | .bind _ n ns t v => by
    simp only [Stmt.bare, stmtRules, codes_append, nameRule_bare n .binding {} ns, typeRule_bare,
      initRules_bare s n ns t v]
  | .loop _ b => by simp only [Stmt.bare, stmtRules, bodyRules_bare s b]
  | .empty _ => rfl
  | .absent _ => rfl
  | .hollow _ _ => rfl

theorem bodyRules_bare (s : Scope) : ∀ b : Body, codes (bodyRules s.bare b.bare) = codes (bodyRules s b)
  | .block _ ss => stmtsRules_bare s ss
  | .stray _ st => stmtRules_bare s st

theorem elseRules_bare (s : Scope) : ∀ no : Option Body, codes (elseRules s.bare (bareElse no)) = codes (elseRules s no)
  | none => rfl
  | some b => bodyRules_bare s b

theorem stmtsRules_bare (s : Scope) : ∀ ss : List Stmt, codes (stmtsRules s.bare (bareStmts ss)) = codes (stmtsRules s ss)
  | [] => rfl
  | st :: ss => by simp only [bareStmts, stmtsRules, codes_append, stmtRules_bare s st, stmtsRules_bare s ss]

end

theorem structFieldsRules_bare (s : Scope) : ∀ (ps : List Param) {seen seen' : List (String × Span)},
    seen'.map (·.1) = seen.map (·.1) →
      codes (structFieldsRules s.bare seen' (ps.map Param.bare)) = codes (structFieldsRules s seen ps)
  | [], _, _, _ => rfl
  | p :: ps, seen, seen', same => by
    have found := find?_isSome_of_names (p := (· == p.name)) same
    simp only [List.map_cons, structFieldsRules, Param.bare]
    cases there' : seen'.find? (·.1 == p.name) with
    | none =>
      cases there : seen.find? (·.1 == p.name) with
      | none =>
        have rest := @structFieldsRules_bare s ps (seen ++ [(p.name, p.span)]) (seen' ++ [(p.name, ({} : Span))])
          (by simp [same])
        simp only [codes_append, nameRule_bare p.name .field {} p.span, typeRule_bare, rest]
      | some _ => rw [there', there] at found; cases found
    | some _ =>
      cases there : seen.find? (·.1 == p.name) with
      | none => rw [there', there] at found; cases found
      | some _ =>
        simp only [codes_cons, structFieldsRules_bare s ps same]
        rfl

theorem paramsRules_bare (s : Scope) (ps : List Param) :
    codes ((ps.map Param.bare).flatMap (paramRules s.bare)) = codes (ps.flatMap (paramRules s)) := by
  induction ps with
  | nil => rfl
  | cons p ps ih =>
    simp only [List.map_cons, List.flatMap_cons, codes_append, ih, paramRules, typeRule_bare, Param.bare,
      nameRule_bare p.name .parameter {} p.span]

theorem mainRule_bare (d : FnDecl) : codes (mainRule d.bare) = codes (mainRule d) := by
  simp only [mainRule, FnDecl.bare]
  cases d.params with
  | nil => rfl
  | cons p ps => by_cases entry : d.name = "main" <;> simp [entry]

theorem itemRules_bare (s : Scope) : ∀ i : Item, codes (itemRules s.bare i.bare) = codes (itemRules s i)
  | .fn d => by
    have main := mainRule_bare d
    simp only [FnDecl.bare] at main
    simp only [Item.bare, itemRules, codes_append, typeRule_bare, bodyRules_bare, paramsRules_bare, main]
  | .struct d => structFieldsRules_bare s d.fields rfl
  | .absent _ => rfl
  | .hollow _ _ => rfl

/-! ### Declarations -/

theorem itemName_bare (i : Item) : (itemName i.bare).1 = (itemName i).1 := by cases i <;> rfl

theorem itemNameRule_bare (i : Item) : codes (itemNameRule i.bare) = codes (itemNameRule i) := by
  cases i with
  | fn d => exact nameRule_bare ..
  | struct d => exact nameRule_bare ..
  | absent _ => rfl
  | hollow _ _ => rfl

theorem scope_add_bare (s : Scope) (i : Item) : (s.add i).bare = s.bare.add i.bare := by
  cases i <;> simp [Scope.add, Scope.bare, Item.bare, StructDecl.bare, FnDecl.bare]

/-- What was declared so far, up to places. -/
structure SameDeclared (known known' : Declared) : Prop where
  scope : known'.scope = known.scope.bare
  places : known'.places.map (·.1) = known.places.map (·.1)

theorem declare_bare {known known' : Declared} (same : SameDeclared known known') (i : Item) :
    SameDeclared (declare known i).1 (declare known' i.bare).1 ∧
      codes (declare known' i.bare).2 = codes (declare known i).2 := by
  have found := find?_isSome_of_names (p := (· == (itemName i).1)) same.places
  simp only [declare, itemName_bare]
  cases there' : known'.places.find? (·.1 == (itemName i).1) with
  | none =>
    cases there : known.places.find? (·.1 == (itemName i).1) with
    | none => exact ⟨⟨by rw [same.scope, scope_add_bare], by simp [same.places]⟩, itemNameRule_bare i⟩
    | some _ => rw [there', there] at found; cases found
  | some _ =>
    cases there : known.places.find? (·.1 == (itemName i).1) with
    | none => rw [there', there] at found; cases found
    | some _ => exact ⟨same, by simp [itemNameRule_bare]⟩

theorem declareAll_bare : ∀ (is : List Item) {known known' : Declared}, SameDeclared known known' →
    SameDeclared (declareAll known is).1 (declareAll known' (is.map Item.bare)).1 ∧
      codes (declareAll known' (is.map Item.bare)).2 = codes (declareAll known is).2
  | [], _, _, same => ⟨same, rfl⟩
  | i :: is, known, known', same => by
    obtain ⟨next, first⟩ := declare_bare same i
    obtain ⟨all, rest⟩ := declareAll_bare is next
    refine ⟨all, ?_⟩
    simp only [List.map_cons, declareAll, codes_append, first, rest]

end Check

/-- The same rules are violated in a tree without its spans. -/
theorem File.check_bare (f : File) (isProgram : Bool) :
    Check.codes (f.bare.check isProgram).found = Check.codes (f.check isProgram).found := by
  obtain ⟨same, declared⟩ := @Check.declareAll_bare f.items {} {} ⟨rfl, rfl⟩
  have inside (s : Check.Scope) : Check.codes ((f.items.map Item.bare).flatMap (Check.itemRules s.bare)) =
      Check.codes (f.items.flatMap (Check.itemRules s)) := by
    induction f.items with
    | nil => rfl
    | cons i is ih => simp only [List.map_cons, List.flatMap_cons, Check.codes_append, Check.itemRules_bare, ih]
  simp only [File.check_found, File.bare, Check.codes_append, declared, same.scope, inside]
  congr 1
  split
  · simp only [Check.entryRule, Check.fn?_bare, Option.isSome_map]
    split <;> rfl
  · rfl

end PineLang
