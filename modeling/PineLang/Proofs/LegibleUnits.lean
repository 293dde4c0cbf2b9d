import PineLang.Proofs.CUnits
import PineLang.Proofs.ParsedNames

/-!
Which trees lower to units that are read back. Lowering a legible tree, one whose names are words of C that
mean no type and whose floats have a text of their own, gives readable code: each expression, statement and
declaration that lowering adds or rearranges is readable as well (`expr_readable`, `stmt_readable`,
`constructor_readable`). Splitting a readable unit leaves its header and its source readable
(`header_readable`, `source_readable`).
-/
namespace PineLang
open C (isWord isName isObjectName CType CExpr CStmt CParam Decl CUnit)

section
variable {structs : List String}

/-! ## Names -/

/-- The name is a word that can name an object. -/
structure IsObject (structs : List String) (n : String) : Prop where
  word : isWord n = true
  object : isObjectName structs n = true

theorem isObjectName_iff {n : String} : isObjectName structs n = true ↔
    n ∉ Check.cKeywords ∧ n ∉ structs ∧ C.baseTypes.lookup n = none := by
  unfold isObjectName isName C.namedType?
  by_cases isStruct : n ∈ structs <;> simp [isStruct]

theorem C.lookup_none_iff {n : String} : C.baseTypes.lookup n = none ↔ n ∉ C.baseTypes.map Prod.fst := by
  rw [List.lookup_eq_none_iff]
  simp only [List.mem_map, not_exists, not_and]
  exact forall₂_congr fun e _ => by rw [bne_iff_ne, ne_comm]

/-- A name that can be declared is no word for a type. -/
theorem FreeName.untyped {n : String} (free : FreeName n) : C.baseTypes.lookup n = none := by
  rw [C.lookup_none_iff]
  have reserved : ∀ w ∈ C.baseTypes.map Prod.fst, w ∈ Check.reservedNames := by decide
  exact fun inside => (freeName_iff.mp free).1 (reserved n inside)

theorem FreeName.isObjectName {n : String} (free : FreeName n) (other : n ∉ structs) : isObjectName structs n = true :=
  isObjectName_iff.mpr ⟨free.not_keyword, other, free.untyped⟩

theorem isWord_append {n more : String} (word : isWord n = true) (parts : more.toList.all C.isWordChar = true) :
    isWord (n ++ more) = true := by
  unfold isWord at word ⊢
  rw [String.toList_append]
  cases shape : n.toList with
  | nil =>
    rw [shape] at word
    cases word
  | cons c cs =>
    rw [shape] at word
    rw [Bool.and_eq_true] at word
    rw [List.cons_append]
    simp only [Bool.and_eq_true, List.all_append]
    exact ⟨word.1, word.2, parts⟩

/-- Behind an underscore a word goes on. -/
theorem isWord_underscore {n : String} (word : isWord n = true) : isWord ("_" ++ n) = true := by
  refine isWord_append (by decide) ?_
  unfold isWord at word
  cases shape : n.toList with
  | nil => rfl
  | cons c cs =>
    rw [shape] at word
    simp only [Bool.and_eq_true] at word
    rw [List.all_cons, Bool.and_eq_true]
    exact ⟨Text.isWordChar_of_head word.1, word.2⟩

/-- If the type is that of a struct, then of one of these. -/
def Ty.Among (structs : List String) (t : Ty) : Prop := ∀ n, t = .struct n → n ∈ structs

namespace Lower

theorem constructorName_word {n : String} (word : isWord n = true) : isWord (constructorName n) = true :=
  isWord_append (isWord_underscore word) (by decide)

theorem localName_word (taken : List String) : isWord (localName taken) = true := by
  have each (i : Nat) : isWord (if i == 0 then "n" else "n" ++ toString i) = true := by
    split
    · decide
    · refine isWord_append (by decide) ?_
      rw [Nat.toString_eq_ofList_toDigits, String.toList_ofList, List.all_eq_true]
      intro c member
      have digit := C.decimal_chars member
      rw [C.isWordChar, Bool.or_eq_true]
      exact .inr ((Text.ascii_codes _ (by omega)).2 digit)
  unfold localName firstFree
  split
  · exact each _
  · exact each 0

/-- A constructor has the name of an object where structs have names that can be declared. -/
theorem constructorName_object (free : ∀ s ∈ structs, FreeName s) (n : String) :
    isObjectName structs (constructorName n) = true := by
  have ends := constructorName_ending n
  refine isObjectName_iff.mpr ⟨constructorName_not_keyword n, ?_, ?_⟩
  · intro isStruct
    exact (freeName_iff.mp (free _ isStruct)).2.2 ends
  · rw [C.lookup_none_iff]
    have apart : ∀ w ∈ C.baseTypes.map Prod.fst, ¬ Check.constructorEnding.toList <:+ w.toList := by decide
    exact fun inside => apart _ inside ends

/-! ## Types -/

theorem ty_readable {t : Ty} {T : CType} (made : ty t = .ok T) (among : t.Among structs) : T.Readable structs := by
  cases t with
  | struct n =>
    cases made
    exact among n rfl
  | str =>
    cases made
    trivial
  | other k => cases made
  | _ =>
    cases made
    simp [CType.Readable, C.baseTypes]

theorem param_readable {p : Param} {c : CParam} (made : param p = .ok c) (name : IsObject structs p.name)
    (among : p.type.ty.Among structs) : c.Readable structs := by
  obtain ⟨T, typed, same⟩ := bind_ok.mp made
  cases pure_ok.mp same
  exact ⟨name.word, name.object, ty_readable typed among⟩

theorem params_readable {ps : List Param} {cs : List CParam} (made : ps.mapM param = .ok cs)
    (each : ∀ p ∈ ps, IsObject structs p.name ∧ p.type.ty.Among structs) : ∀ c ∈ cs, c.Readable structs := by
  intro c inside
  obtain ⟨k, atParam⟩ := List.getElem?_of_mem inside
  obtain ⟨p, atSource, here⟩ := forall₂_at (mapM_ok_iff.mp made).flip atParam
  have known := each p (List.mem_of_getElem? atSource)
  exact param_readable here known.1 known.2

end Lower

/-! ## Expressions -/

/-- A part of an expression that can be read back: names are words, identifiers mean no type, what is assigned
    to is no cast, and a float has a text of its own. -/
def Expr.Legible (structs : List String) : Expr → Prop
  | .ident _ n => IsObject structs n
  | .member _ _ f _ => isWord f = true ∧ isName f = true
  | .assign _ a _ => Grammar.Target a
  | .lit _ (.float x _) => C.floatValue? (utf8 (C.floatText x)) = some x
  | _ => True

namespace Lower

theorem binaryOp_known {op : BinaryOp} {cop : C.BinaryOp} (made : binaryOp op = .ok cop) :
    ∃ p k, (p, cop, k) ∈ C.binaries := by
  cases op with
  | other k => cases made
  | _ =>
    cases made
    simp [C.binaries]

theorem unaryOp_known (op : UnaryOp) : ∃ p, (p, unaryOp op) ∈ C.prefixes := by
  cases op <;> simp [unaryOp, C.prefixes]

theorem toInt_nonneg {v : UInt64} (small : v.toNat < 0x8000000000000000) : 0 ≤ v.toInt64.toInt := by
  have value : v.toInt64.toInt = v.toBitVec.toInt := rfl
  have bits : v.toBitVec.toNat = v.toNat := rfl
  rw [value, BitVec.toInt_eq_toNat_cond, bits, if_pos (by omega)]
  exact Int.natCast_nonneg _

theorem literal_readable {span : Span} {v : Literal} {c : CExpr} (made : literal v = .ok c)
    (legible : (Expr.lit span v).Legible structs) : c.Readable structs ∧ c.isSizeOf = false := by
  cases v with
  | bool b =>
    cases made
    have least : 0 ≤ Int64.toInt (if b then 1 else 0) := by cases b <;> decide
    exact ⟨.const least, rfl⟩
  | nil =>
    cases made
    exact ⟨.cast (by decide : CType.void ∈ C.baseTypes.map Prod.snd) (.const (by decide : (0 : Int) ≤ Int64.toInt 0)), rfl⟩
  | int v t =>
    cases made
    refine ⟨.const ?_, rfl⟩
    split
    · next small => exact toInt_nonneg small
    · trivial
  | float x t =>
    cases made
    exact ⟨.const legible, rfl⟩
  | string t =>
    cases made
    exact ⟨.const trivial, rfl⟩
  | other k t => cases made

mutual

/-- Legible expressions become readable ones. None of them measures a type. -/
theorem expr_readable : ∀ {e : Expr} {c : CExpr}, expr e = .ok c → (∀ p ∈ e.parts, p.Legible structs) →
    c.Readable structs ∧ c.isSizeOf = false
  | .ident _ n, c, made, legible => by
    cases made
    have name : IsObject structs n := legible _ (self_mem_parts _)
    exact ⟨.ident name.word name.object, rfl⟩
  | .lit _ v, c, made, legible => literal_readable made (legible _ (self_mem_parts _))
  | .assign _ a b, c, made, legible => by
    simp only [expr, bind_ok, pure_ok] at made
    obtain ⟨l, left, r, right, rfl⟩ := made
    rw [Expr.parts, List.forall_mem_cons, List.forall_mem_append] at legible
    obtain ⟨isTarget, inLeft, inRight⟩ := legible
    have assignable : l.isCast = false := by
      cases (isTarget : Grammar.Target a) with
      | «variable» =>
        cases left
        rfl
      | field =>
        simp only [expr, bind_ok, pure_ok] at left
        obtain ⟨_, -, rfl⟩ := left
        rfl
    exact ⟨.assign (p := .set) (by simp [C.assigns]) assignable (expr_readable left inLeft).1 (expr_readable right inRight).1, rfl⟩
  | .call _ f args, c, made, legible => by
    simp only [expr, bind_ok, pure_ok] at made
    obtain ⟨cs, inner, g, callee, rfl⟩ := made
    rw [Expr.parts, List.forall_mem_cons, List.forall_mem_append] at legible
    obtain ⟨-, inCallee, inArgs⟩ := legible
    obtain ⟨readable, isTarget⟩ := expr_readable callee inCallee
    exact ⟨.call readable isTarget (exprs_readable inner inArgs), rfl⟩
  | .member _ t f _, c, made, legible => by
    simp only [expr, bind_ok, pure_ok] at made
    obtain ⟨x, target, rfl⟩ := made
    rw [Expr.parts, List.forall_mem_cons] at legible
    obtain ⟨⟨word, name⟩, inTarget⟩ := legible
    obtain ⟨readable, isTarget⟩ := expr_readable target inTarget
    exact ⟨.member readable isTarget word name, rfl⟩
  | .unary _ op x, c, made, legible => by
    simp only [expr, bind_ok, pure_ok] at made
    obtain ⟨y, operand, rfl⟩ := made
    rw [Expr.parts, List.forall_mem_cons] at legible
    obtain ⟨p, known⟩ := unaryOp_known op
    exact ⟨.unary known (expr_readable operand legible.2).1, rfl⟩
  | .binary _ op a b, c, made, legible => by
    simp only [expr, bind_ok, pure_ok] at made
    obtain ⟨_, isOp, l, left, r, right, rfl⟩ := made
    rw [Expr.parts, List.forall_mem_cons, List.forall_mem_append] at legible
    obtain ⟨-, inLeft, inRight⟩ := legible
    obtain ⟨p, k, known⟩ := binaryOp_known isOp
    exact ⟨.binary known (expr_readable left inLeft).1 (expr_readable right inRight).1, rfl⟩
  | .group _ x, c, made, legible => by
    rw [expr] at made
    rw [Expr.parts, List.forall_mem_cons] at legible
    exact expr_readable made legible.2
  | .structLit _ _ _ _, c, made, _ => by cases made
  | .absent _, c, made, _ => by cases made
  | .hollow _ _, c, made, _ => by cases made

theorem exprs_readable : ∀ {es : List Expr} {cs : List CExpr}, exprs es = .ok cs →
    (∀ p ∈ exprsParts es, p.Legible structs) → ∀ c ∈ cs, c.Readable structs
  | [], cs, made, _ => by
    cases made
    nofun
  | x :: xs, cs, made, legible => by
    simp only [exprs, bind_ok, pure_ok] at made
    obtain ⟨y, first, ys, rest, rfl⟩ := made
    rw [exprsParts, List.forall_mem_append] at legible
    exact List.forall_mem_cons.mpr ⟨(expr_readable first legible.1).1, exprs_readable rest legible.2⟩

end

end Lower

/-! ## Statements -/

/-- The statement binds the name of an object to a known type, and the parts of its expressions can be read
    back. -/
structure Stmt.Legible (structs : List String) (s : Stmt) : Prop where
  binding : ∀ x t v, s.binding? = some (x, t, v) → IsObject structs x ∧ t.Among structs
  parts : ∀ e ∈ s.exprs, ∀ p ∈ e.parts, p.Legible structs

namespace Lower

/-- The struct is known, and its members and its constructor can be read back. -/
structure Layout.Readable (structs : List String) (l : Layout) : Prop where
  isStruct : l.name ∈ structs
  constructor : IsObject structs (constructorName l.name)
  members : ∀ m ∈ l.members, m.Readable structs

theorem set_readable {x : String} (name : IsObject structs x) {c : CExpr} (readable : c.Readable structs) :
    (C.set (.ident x) c).Readable structs :=
  .expr (.assign (p := .set) (by simp [C.assigns]) rfl (.ident name.word name.object) readable)

theorem call_readable {f : String} (name : IsObject structs f) {args : List CExpr} (readable : ∀ a ∈ args, a.Readable structs) :
    (C.call f args).Readable structs :=
  .call (.ident name.word name.object) rfl readable

theorem fieldInit_parts {f : FieldInit} {fs : List FieldInit} (inside : f ∈ fs) : ∀ p ∈ f.value.parts, p ∈ fieldsParts fs := by
  induction fs with
  | nil => cases inside
  | cons g fs ih =>
    intro p isPart
    rw [fieldsParts, List.mem_append]
    rcases List.mem_cons.mp inside with rfl | later
    · cases f
      exact .inl isPart
    · exact .inr (ih later p isPart)

/-- A member that is found by its name and type is one of the layout. -/
theorem memberType_mem {l : Layout} {field : String} {t : CType} (found : l.memberType? field = some t) :
    ∃ m ∈ l.members, m.name = field ∧ m.type = t := by
  obtain ⟨m, hit, rfl⟩ := Option.map_eq_some_iff.mp found
  exact ⟨m, List.mem_reverse.mp (List.mem_of_find?_eq_some hit), by simpa using List.find?_some hit, rfl⟩

/-- The temporaries of a literal and the call of the constructor. -/
theorem structInit_readable {l : Layout} (layout : l.Readable structs) {fs : List FieldInit} {temps : List CStmt}
    {done : List String} (made : temporaries l [] fs = .ok (temps, done)) {args : List CExpr}
    (given : constructorArgs l done = .ok args) (legible : ∀ p ∈ fieldsParts fs, p.Legible structs) {x : String}
    (name : IsObject structs x) :
    ∀ s ∈ temps ++ [C.set (.ident x) (C.call (constructorName l.name) args)], s.Readable structs := by
  obtain ⟨ts, fits, rfl, -⟩ := temporaries_cases made
  rw [List.forall_mem_append, List.forall_mem_flatMap, List.forall_mem_singleton]
  constructor
  · intro t inside
    obtain ⟨k, atTemp⟩ := List.getElem?_of_mem inside
    obtain ⟨f, atField, fit⟩ := forall₂_at fits.flip atTemp
    obtain ⟨m, isMember, named, typed⟩ := memberType_mem fit.type
    have member := layout.members m isMember
    rw [← fit.name] at named
    have own : IsObject structs t.name := ⟨named ▸ member.word, named ▸ member.object⟩
    have value := expr_readable fit.value fun p isPart =>
      legible p (fieldInit_parts (List.mem_of_getElem? atField) p isPart)
    rw [Temporary.code, List.forall_mem_cons, List.forall_mem_singleton]
    exact ⟨.var own.word own.object (typed ▸ member.type), set_readable own value.1⟩
  · refine set_readable name (call_readable layout.constructor ?_)
    rw [constructorArgs_eq given, List.forall_mem_map, List.forall_mem_map]
    intro m isMember
    have member := layout.members m isMember
    exact .ident member.word member.object

theorem binding_readable {ls : Layouts} (layouts : ∀ l ∈ ls, l.Readable structs) {x : String} {t : Ty} {v : Expr}
    {cs : List CStmt} (made : binding ls x t v = .ok cs) (name : IsObject structs x) (among : t.Among structs)
    (legible : ∀ p ∈ v.parts, p.Legible structs) : ∀ c ∈ cs, c.Readable structs := by
  obtain ⟨T, c, -, typed, valued, rfl⟩ | ⟨n, fs, l, temps, done, args, isLiteral, found, temporariesOk, argsOk, rfl⟩ :=
    binding_cases made
  · rw [List.forall_mem_cons, List.forall_mem_singleton]
    exact ⟨.var name.word name.object (ty_readable typed among), set_readable name (expr_readable valued legible).1⟩
  · have layout := layouts l (List.mem_of_find?_eq_some found)
    have named : l.name = n := by simpa using List.find?_some found
    subst named
    have inFields : ∀ p ∈ fieldsParts fs, p.Legible structs := by
      cases v with
      | structLit =>
        cases isLiteral
        rw [Expr.parts, List.forall_mem_cons] at legible
        exact legible.2
      | _ => cases isLiteral
    rw [List.forall_mem_cons, List.forall_mem_singleton]
    exact ⟨.var name.word name.object layout.isStruct,
      .block (structInit_readable layout temporariesOk argsOk inFields name)⟩

mutual

/-- Legible statements become readable ones, if those inside them are legible. -/
theorem stmt_readable {ls : Layouts} (layouts : ∀ l ∈ ls, l.Readable structs) (scope : List String) :
    ∀ {s : Stmt} {cs : List CStmt}, stmt ls s = .ok cs → s.Legible structs →
      (∀ site ∈ s.sites scope, site.stmt.Legible structs) → ∀ c ∈ cs, c.Readable structs
  | .block _ ss, cs, made, _, inner => by
    simp only [stmt, bind_ok, pure_ok] at made
    obtain ⟨body, bodyOk, rfl⟩ := made
    exact List.forall_mem_singleton.mpr (.block (stmts_readable layouts scope bodyOk inner))
  | .expr _ x, cs, made, legible, _ => by
    simp only [stmt, bind_ok, pure_ok] at made
    obtain ⟨c, valued, rfl⟩ := made
    exact List.forall_mem_singleton.mpr (.expr (expr_readable valued (legible.parts x (List.mem_singleton_self x))).1)
  | .cond _ t yes no, cs, made, legible, inner => by
    simp only [stmt, bind_ok, pure_ok] at made
    obtain ⟨test, tested, first, firstOk, second, secondOk, rfl⟩ := made
    rw [Stmt.sites, List.forall_mem_append] at inner
    have test' := (expr_readable tested (legible.parts t (List.mem_singleton_self t))).1
    have first' := body_readable layouts scope firstOk inner.1
    refine List.forall_mem_singleton.mpr ?_
    cases no with
    | none =>
      cases secondOk
      exact .if test' first'
    | some b =>
      simp only [otherwise, bind_ok, pure_ok] at secondOk
      obtain ⟨other, otherOk, rfl⟩ := secondOk
      exact .ifElse test' first' (body_readable layouts scope otherOk inner.2)
  | .ret _ none, cs, made, _, _ => by
    cases made
    exact List.forall_mem_singleton.mpr .ret
  | .ret _ (some x), cs, made, legible, _ => by
    simp only [stmt, bind_ok, pure_ok] at made
    obtain ⟨c, valued, rfl⟩ := made
    exact List.forall_mem_singleton.mpr (.retValue (expr_readable valued (legible.parts x (List.mem_singleton_self x))).1)
  | .brk _, cs, made, _, _ => by
    cases made
    exact List.forall_mem_singleton.mpr .break
  | .empty _, cs, made, _, _ => by
    cases made
    exact List.forall_mem_singleton.mpr .empty
  | .loop _ b, cs, made, _, inner => by
    simp only [stmt, bind_ok, pure_ok] at made
    obtain ⟨body, bodyOk, rfl⟩ := made
    have one : (C.CExpr.const (.int 1)).Readable structs := .const (by decide : (0 : Int) ≤ Int64.toInt 1)
    exact List.forall_mem_singleton.mpr (.while one (body_readable layouts scope bodyOk inner))
  | .bind _ x _ t v, cs, made, legible, _ => by
    obtain ⟨name, among⟩ := legible.binding x t.ty v rfl
    exact binding_readable layouts made name among (legible.parts v (List.mem_singleton_self v))
  | .absent _, cs, made, _, _ => by cases made
  | .hollow _ _, cs, made, _, _ => by cases made

theorem body_readable {ls : Layouts} (layouts : ∀ l ∈ ls, l.Readable structs) (scope : List String) :
    ∀ {b : Body} {cs : List CStmt}, body ls b = .ok cs → (∀ site ∈ b.sites scope, site.stmt.Legible structs) →
      ∀ c ∈ cs, c.Readable structs
  | .block _ ss, cs, made, inner => stmts_readable layouts scope made inner
  | .stray id s, cs, made, inner => by
    unfold body at made
    split at made <;> simp_all

theorem stmts_readable {ls : Layouts} (layouts : ∀ l ∈ ls, l.Readable structs) (scope : List String) :
    ∀ {ss : List Stmt} {cs : List CStmt}, stmts ls ss = .ok cs → (∀ site ∈ stmtSites scope ss, site.stmt.Legible structs) →
      ∀ c ∈ cs, c.Readable structs
  | [], cs, made, _ => by
    cases made
    nofun
  | s :: ss, cs, made, inner => by
    simp only [stmts, bind_ok, pure_ok] at made
    obtain ⟨first, firstOk, more, moreOk, rfl⟩ := made
    rw [stmtSites, List.forall_mem_cons, List.forall_mem_append] at inner
    obtain ⟨own, inside, behind⟩ := inner
    exact List.forall_mem_append.mpr
      ⟨stmt_readable layouts scope firstOk own inside, stmts_readable layouts (s.declared ++ scope) moreOk behind⟩

end

/-! ## Declarations -/

/-- The constructor of a struct whose members can be declared. -/
theorem constructor_readable {l : Layout} (layout : l.Readable structs) (free : ∀ m ∈ l.members, FreeName m.name)
    (runtime : IsObject structs allocator ∧ IsObject structs C.collector) (object : IsObject structs l.object) :
    (constructor l).Readable structs := by
  have pointer : (CType.ptr (.struct l.name)).Readable structs := layout.isStruct
  have handle : (CExpr.unary .address (.ident C.collector)).Readable structs :=
    .unary (p := .amp) (by simp [C.prefixes]) (.ident runtime.2.word runtime.2.object)
  have allocation : l.allocation.Readable structs := by
    refine .cast pointer (call_readable runtime.1 ?_)
    rw [List.forall_mem_cons, List.forall_mem_singleton]
    exact ⟨handle, .sizeOf layout.isStruct⟩
  have local' : (CExpr.ident l.object).Readable structs := .ident object.word object.object
  rw [constructor_of_free free]
  refine .definition layout.constructor.word layout.constructor.object layout.members pointer ?_
  rw [Layout.construction, List.forall_mem_append, List.forall_mem_cons, List.forall_mem_cons, List.forall_mem_map,
    List.forall_mem_singleton]
  refine ⟨⟨.var object.word object.object pointer, set_readable object allocation, ?_⟩, .retValue local'⟩
  intro m inside
  have member := layout.members m inside
  have target : (CExpr.member (.ident l.object) .indirect m.name).Readable structs := by
    refine .member local' rfl member.word ?_
    have name := (isObjectName_iff.mp member.object).1
    simpa [isName] using name
  exact .expr (.assign (p := .set) (by simp [C.assigns]) rfl target (.ident member.word member.object))

end Lower

/-! ## Splitting -/

namespace C.CUnit

theorem header_readable {u : CUnit} (readable : u.Readable structs) : u.header.Readable structs where
  includes := readable.includes
  decls := by
    intro d inside
    rcases List.mem_append.mp inside with shared | prototype
    · exact readable.decls d (List.mem_of_mem_filter shared)
    · obtain ⟨e, isDecl, same⟩ := List.mem_filterMap.mp prototype
      have whole := readable.decls e isDecl
      cases whole with
      | struct => cases same
      | prototype word object params ret =>
        cases same
        exact .prototype word object params ret
      | definition word object params ret body =>
        cases same
        exact .prototype word object params ret

/-- The source includes the header by the name of the unit, which must not end early. -/
theorem source_readable {u : CUnit} (readable : u.Readable structs) (line : 0x0A ∉ utf8 u.name) (quote : 0x22 ∉ utf8 u.name) :
    u.source.Readable structs where
  includes := by
    have ending : 0x0A ∉ utf8 ".h" ∧ 0x22 ∉ utf8 ".h" := by decide +kernel
    refine List.forall_mem_singleton.mpr ⟨?_, ?_⟩
    · rw [utf8_append, List.mem_append]
      exact not_or.mpr ⟨line, ending.1⟩
    · rw [utf8_append, List.mem_append]
      exact not_or.mpr ⟨quote, ending.2⟩
  decls d inside := readable.decls d (List.mem_of_mem_filter inside)

end C.CUnit
end
end PineLang
