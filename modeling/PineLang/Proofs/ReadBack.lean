import PineLang.Proofs.LegibleUnits
import PineLang.Proofs.ReaderNames
import PineLang.Proofs.TypeNames

/-!
The text of generated units, read back. Where no object has a struct's name and no expression uses a keyword
of C, the text of the unit of an accepted file is read back as that unit, and so are its header and source.
-/
namespace PineLang
open C (isWord isName isObjectName CType CParam Decl CUnit)

/-! ## What a file says -/

/-- The names of the structs that a file declares. -/
def File.structNames (f : File) : List String := (f.items.filterMap Check.struct?).map (·.name)

/-- The expressions of a file, those inside others included. -/
def File.parts (f : File) : List Expr := f.sites.flatMap fun site => site.stmt.exprs.flatMap Expr.parts

/-- The names of the objects of a file: fields and the locals of constructors, parameters, locals, and what
    identifiers mention. -/
def File.objects (f : File) : List String :=
  (f.items.filterMap Check.struct?).flatMap (fun d => d.object :: d.fields.map (·.name)) ++
    (f.items.filterMap Check.fn?).flatMap (fun d => d.params.map (·.name)) ++
    f.sites.flatMap (fun site => site.stmt.declared) ++ identsAmong f.parts

/-- The value of a float. -/
def Expr.float? : Expr → Option Double
  | .lit _ (.float x _) => some x
  | _ => none

/-- The floats of a file. -/
def File.floats (f : File) : List Double := f.parts.filterMap Expr.float?

theorem File.mem_structNames {f : File} {n : String} : n ∈ f.structNames ↔ f.Declares n := by
  unfold File.structNames File.Declares
  simp only [List.mem_map, Check.mem_structs]

theorem File.mem_parts {f : File} {p : Expr} :
    p ∈ f.parts ↔ ∃ site ∈ f.sites, ∃ e ∈ site.stmt.exprs, p ∈ e.parts := by
  simp only [File.parts, List.mem_flatMap]

theorem File.mem_used {f : File} {n : String} : n ∈ f.used ↔ n ∈ usedAmong f.parts := by
  simp only [File.used, Item.used, Stmt.used, Expr.used, usedAmong, File.parts, File.sites, List.mem_flatMap]
  constructor
  · rintro ⟨i, item, site, inside, e, own, p, part, uses⟩
    exact ⟨p, ⟨site, ⟨i, item, inside⟩, e, own, part⟩, uses⟩
  · rintro ⟨p, ⟨site, ⟨i, item, inside⟩, e, own, part⟩, uses⟩
    exact ⟨i, item, site, inside, e, own, p, part, uses⟩

/-- No object of the file has a struct's name, no expression uses a keyword of C, and the text of each float is
    read back as it. -/
structure File.Distinguished (f : File) : Prop where
  objects : ∀ n ∈ f.objects, n ∉ f.structNames
  used : ∀ n ∈ f.used, n ∉ Check.cKeywords
  floats : ∀ x ∈ f.floats, C.floatValue? (utf8 (C.floatText x)) = some x

/-- No identifier in the file has the name of a type of C. -/
def File.Untyped (f : File) : Prop := ∀ n ∈ identsAmong f.parts, n ∉ C.baseTypes.map Prod.fst

theorem C.floatText_eq (x : Double) : C.floatText x =
    if x.general.toList.any (fun c => c == '.' || c == 'e' || c == 'E') then x.general else x.general ++ ".0" := by
  rw [C.floatText, String.any, String.contains_bool_eq]

instance (x : Double) : Decidable (C.floatValue? (utf8 (C.floatText x)) = some x) :=
  decidable_of_iff (C.floatValue? (utf8 (if x.general.toList.any (fun c => c == '.' || c == 'e' || c == 'E') then x.general
    else x.general ++ ".0")) = some x) (by rw [C.floatText_eq])

instance (f : File) : Decidable f.Distinguished :=
  decidable_of_iff ((∀ n ∈ f.objects, n ∉ f.structNames) ∧ (∀ n ∈ f.used, n ∉ Check.cKeywords) ∧
      ∀ x ∈ f.floats, C.floatValue? (utf8 (C.floatText x)) = some x)
    ⟨fun facts => ⟨facts.1, facts.2.1, facts.2.2⟩, fun apart => ⟨apart.objects, apart.used, apart.floats⟩⟩

instance (f : File) : Decidable f.Untyped :=
  inferInstanceAs (Decidable (∀ n ∈ identsAmong f.parts, n ∉ C.baseTypes.map Prod.fst))

section
variable {f : File} {isProgram : Bool}

/-! ## Legible files -/

/-- The names in the file are words, and only variables and fields are assigned to. -/
def File.WellNamed (f : File) : Prop := ∀ i ∈ f.items, i.WellNamed

theorem File.WellNamed.site (named : f.WellNamed) {site : Site} (member : site ∈ f.sites) : site.stmt.WellNamed := by
  obtain ⟨d, item, inside⟩ := mem_fileSites.mp member
  exact (named _ item).2.2 site inside

/-- The names of the structs are names of types, whichever objects there are. -/
theorem File.Valid.areStructs (valid : f.Valid isProgram) (named : f.WellNamed) : C.AreStructs f.structNames := by
  have each {s : String} (member : s ∈ f.structNames) : isWord s = true ∧ FreeName s := by
    obtain ⟨d, isItem, rfl⟩ := File.mem_structNames.mp member
    exact ⟨(named _ isItem).1, (valid.structs d isItem).name⟩
  refine ⟨fun s member => (each member).1, fun s member => ?_, fun s member => (each member).2.untyped⟩
  simpa [isName] using (each member).2.not_keyword

namespace File.Distinguished

theorem field (apart : f.Distinguished) {d : StructDecl} (member : Item.struct d ∈ f.items) {p : Param} (inside : p ∈ d.fields) :
    p.name ∉ f.structNames := by
  refine apart.objects _ ?_
  simp only [File.objects, List.mem_append, List.mem_flatMap, List.mem_cons, List.mem_map]
  exact .inl (.inl (.inl ⟨d, Check.mem_structs.mpr member, .inr ⟨p, inside, rfl⟩⟩))

theorem object (apart : f.Distinguished) {d : StructDecl} (member : Item.struct d ∈ f.items) : d.object ∉ f.structNames := by
  refine apart.objects _ ?_
  simp only [File.objects, List.mem_append, List.mem_flatMap, List.mem_cons]
  exact .inl (.inl (.inl ⟨d, Check.mem_structs.mpr member, .inl rfl⟩))

theorem param (apart : f.Distinguished) {d : FnDecl} (member : Item.fn d ∈ f.items) {p : Param} (inside : p ∈ d.params) :
    p.name ∉ f.structNames := by
  refine apart.objects _ ?_
  simp only [File.objects, List.mem_append, List.mem_flatMap, List.mem_map]
  exact .inl (.inl (.inr ⟨d, Check.mem_fns.mpr member, p, inside, rfl⟩))

theorem binding (apart : f.Distinguished) {site : Site} (member : site ∈ f.sites) {n : String} (declares : n ∈ site.stmt.declared) :
    n ∉ f.structNames := by
  refine apart.objects _ ?_
  simp only [File.objects, List.mem_append, List.mem_flatMap]
  exact .inl (.inr ⟨site, member, declares⟩)

theorem mention (apart : f.Distinguished) {n : String} (mentions : n ∈ identsAmong f.parts) : n ∉ f.structNames :=
  apart.objects n (List.mem_append_right _ mentions)

end File.Distinguished

theorem File.Distinguished.legible (apart : f.Distinguished) (named : f.WellNamed) (untyped : f.Untyped) :
    ∀ p ∈ f.parts, p.Legible f.structNames := by
  intro p member
  obtain ⟨site, inside, e, own, part⟩ := File.mem_parts.mp member
  have well := (named.site inside).parts e own p part
  have plain : ∀ n ∈ p.own, n ∉ Check.cKeywords := fun n uses =>
    apart.used n (File.mem_used.mpr (List.mem_flatMap.mpr ⟨p, member, uses⟩))
  cases p with
  | ident s n =>
    have mentions : n ∈ identsAmong f.parts := List.mem_filterMap.mpr ⟨_, member, rfl⟩
    refine ⟨well.names n (List.mem_singleton_self n), isObjectName_iff.mpr ⟨plain n (List.mem_singleton_self n), ?_, ?_⟩⟩
    · exact apart.mention mentions
    · exact C.lookup_none_iff.mpr (untyped n mentions)
  | member s t n ns =>
    refine ⟨well.names n (List.mem_singleton_self n), ?_⟩
    simpa [isName] using plain n (List.mem_singleton_self n)
  | assign s a b => exact well.target s a b rfl
  | lit s v =>
    cases v with
    | float x t => exact apart.floats x (List.mem_filterMap.mpr ⟨_, member, rfl⟩)
    | _ => trivial
  | _ => trivial

/-! ## Readable declarations -/

/-- A type of a valid file is known, or it is that of a struct of the file. -/
theorem among_structNames {t : Ty} (typed : f.HasType t) : t.Among f.structNames :=
  fun n isStruct => File.mem_structNames.mpr (typed n isStruct)

theorem isObject_of_free {n : String} (free : FreeName n) (word : isWord n = true) (other : n ∉ f.structNames) :
    IsObject f.structNames n := ⟨word, free.isObjectName other⟩

theorem site_legible (valid : f.Valid isProgram) (named : f.WellNamed) (apart : f.Distinguished) (untyped : f.Untyped)
    {site : Site} (member : site ∈ f.sites) : site.stmt.Legible f.structNames where
  binding x t v bound := by
    have declares : x ∈ site.stmt.declared := by
      obtain ⟨sp, xs, r, same, -⟩ := Stmt.eq_bind bound
      rw [same]
      exact List.mem_singleton_self x
    have rules := valid.stmt member
    exact ⟨isObject_of_free (rules.name x t v bound) ((named.site member).binding x t v bound) (apart.binding member declares),
      among_structNames (rules.type x t v bound)⟩
  parts e own p part := apart.legible named untyped p (File.mem_parts.mpr ⟨site, member, e, own, part⟩)

theorem layout_readable (valid : f.Valid isProgram) (named : f.WellNamed) (apart : f.Distinguished) {d : StructDecl}
    (member : Item.struct d ∈ f.items) {l : Lower.Layout} (laid : Lower.LaidOut d l) : l.Readable f.structNames where
  isStruct := File.mem_structNames.mpr ⟨d, member, laid.name.symm⟩
  constructor := by
    have free : ∀ s ∈ f.structNames, FreeName s := by
      intro s inside
      obtain ⟨e, isItem, rfl⟩ := File.mem_structNames.mp inside
      exact (valid.structs e isItem).name
    rw [laid.name]
    exact ⟨Lower.constructorName_word (named _ member).1, Lower.constructorName_object free d.name⟩
  members := by
    have rules := valid.structs d member
    exact Lower.params_readable laid.members fun p inside =>
      ⟨isObject_of_free (rules.fieldNames p inside) ((named _ member).2 p inside) (apart.field member inside),
        among_structNames (rules.fieldTypes p inside)⟩

/-- The name that a function gets is that of an object. -/
theorem fnName_object (valid : f.Valid isProgram) (named : f.WellNamed) {d : FnDecl} (member : Item.fn d ∈ f.items) :
    IsObject f.structNames (Lower.fnName d.name) := by
  by_cases entry : d.name = "main"
  · have renamed : Lower.fnName d.name = C.programEntry := by simp [Lower.fnName, entry]
    have plain : C.programEntry ∉ Check.cKeywords ∧ C.baseTypes.lookup C.programEntry = none := by decide
    rw [renamed]
    refine ⟨by decide, isObjectName_iff.mpr ⟨plain.1, ?_, plain.2⟩⟩
    intro isStruct
    obtain ⟨e, isItem, same⟩ := File.mem_structNames.mp isStruct
    exact free_ne_entry (valid.structs e isItem).name same
  · have same : Lower.fnName d.name = d.name := by simp [Lower.fnName, entry]
    rw [same]
    refine isObject_of_free ((valid.fns d member).name entry) (named _ member).1 ?_
    intro isStruct
    obtain ⟨e, isItem, sameName⟩ := File.mem_structNames.mp isStruct
    exact Item.noConfusion (List.inj_on_of_nodup_map valid.distinct isItem member sameName)

theorem item_readable (valid : f.Valid isProgram) (named : f.WellNamed) (apart : f.Distinguished) (untyped : f.Untyped)
    {ls : Lower.Layouts} (laid : Lower.layouts [] f.items = .ok ls) (layouts : ∀ l ∈ ls, l.Readable f.structNames)
    {i : Item} (member : i ∈ f.items) {d : Decl} (made : Lower.item ls i = .ok d) : d.Readable f.structNames := by
  cases i with
  | fn e =>
    have rules := valid.fns e member
    have name := fnName_object valid named member
    simp only [Lower.item, Lower.bind_ok, Lower.pure_ok] at made
    obtain ⟨params, paramsOk, ret, retOk, inner, innerOk, rfl⟩ := made
    refine .definition name.word name.object ?_ ?_ ?_
    · exact Lower.params_readable paramsOk fun p inside =>
        ⟨isObject_of_free (rules.paramNames p inside) ((named _ member).2.1 p inside) (apart.param member inside),
          among_structNames (rules.paramTypes p inside)⟩
    · exact Lower.ty_readable retOk (among_structNames rules.ret)
    · exact Lower.body_readable layouts _ innerOk fun site inside =>
        site_legible valid named apart untyped (mem_fileSites.mpr ⟨e, member, inside⟩)
  | struct e =>
    have rules := valid.structs e member
    obtain ⟨members, membersOk, rfl⟩ := Lower.item_struct laid member made
    refine .struct (File.mem_structNames.mpr ⟨e, member, rfl⟩) ?_
    exact Lower.params_readable membersOk fun p inside =>
      ⟨isObject_of_free (rules.fieldNames p inside) ((named _ member).2 p inside) (apart.field member inside),
        among_structNames (rules.fieldTypes p inside)⟩
  | absent _ | hollow _ _ => cases made

/-- The unit of a legible file is readable. -/
theorem unit_readable (valid : f.Valid isProgram) (named : f.WellNamed) (apart : f.Distinguished) (untyped : f.Untyped)
    {name : String} {u : CUnit} (lowered : f.lower name = .ok u) : u.Readable f.structNames := by
  obtain ⟨ls, decls, unit⟩ := Lower.unit_cases lowered
  have source {l : Lower.Layout} (inside : l ∈ ls) : ∃ d, Item.struct d ∈ f.items ∧ Lower.LaidOut d l := by
    obtain ⟨k, atLayout⟩ := List.getElem?_of_mem inside
    obtain ⟨d, atStruct, laid⟩ := Lower.forall₂_at unit.structs.flip atLayout
    exact ⟨d, Check.mem_structs.mp (List.mem_of_getElem? atStruct), laid⟩
  have layouts : ∀ l ∈ ls, l.Readable f.structNames := by
    intro l inside
    obtain ⟨d, member, laid⟩ := source inside
    exact layout_readable valid named apart member laid
  refine ⟨?_, ?_⟩
  · have plain : ∀ i ∈ Lower.includes, i.Readable := by
      unfold Lower.includes
      simp only [List.forall_mem_cons, List.not_mem_nil, false_imp_iff, implies_true, and_true]
      exact ⟨⟨by decide +kernel, by decide +kernel⟩, ⟨by decide +kernel, by decide +kernel⟩, by decide +kernel, by decide +kernel⟩
    rw [(Lower.unit_head lowered).2.2]
    exact plain
  rw [unit.decls, List.forall_mem_append, List.forall_mem_map]
  refine ⟨?_, ?_⟩
  · intro d inside
    obtain ⟨k, atDecl⟩ := List.getElem?_of_mem inside
    obtain ⟨i, atItem, made⟩ := Lower.forall₂_at unit.items.flip atDecl
    exact item_readable valid named apart untyped unit.layouts layouts (List.mem_of_getElem? atItem) made
  · intro l inside
    obtain ⟨d, member, laid⟩ := source inside
    have readable := layouts l inside
    have runtime : IsObject f.structNames Lower.allocator ∧ IsObject f.structNames C.collector := by
      have own {n : String} (word : isWord n = true) (taken : Check.reservedReason? n ≠ none)
          (plain : n ∉ Check.cKeywords) (untyped : C.baseTypes.lookup n = none) : IsObject f.structNames n := by
        refine ⟨word, isObjectName_iff.mpr ⟨plain, ?_, untyped⟩⟩
        intro isStruct
        obtain ⟨e, isItem, same⟩ := File.mem_structNames.mp isStruct
        exact (valid.structs e isItem).name.ne taken same
      exact ⟨own (by decide) (by decide) (by decide) (by decide),
        own (by decide) (by decide) (by decide) (by decide)⟩
    have same : l.object = d.object := by rw [Lower.Layout.object, laid.names, StructDecl.object]
    have object : IsObject f.structNames l.object := by
      refine ⟨Lower.localName_word _, isObjectName_iff.mpr ⟨localName_not_keyword _, ?_, ?_⟩⟩
      · rw [same]
        exact apart.object member
      · rw [C.lookup_none_iff]
        have starts : ∀ w ∈ C.baseTypes.map Prod.fst, w.toList.head? ≠ some 'n' := by decide
        exact fun inside => starts _ inside (localName_head _)
    exact Lower.constructor_readable readable (laid.free (valid.structs d member)) runtime object

/-! ## What the code mentions -/

namespace Lower
open C (CExpr CStmt CodeSite codeSites)

theorem stmt_evaluated {ls : Layouts} {s : Stmt} {run : List CStmt} (made : stmt ls s = .ok run)
    (unbound : s.binding? = none) {e : Expr} (own : e ∈ s.exprs) : ∃ c ∈ run, ∃ x ∈ c.evaluated, expr e = .ok x := by
  cases s with
  | expr _ x =>
    simp only [stmt, bind_ok, pure_ok] at made
    obtain ⟨y, valued, rfl⟩ := made
    cases List.mem_singleton.mp own
    exact ⟨_, List.mem_singleton_self _, y, List.mem_singleton_self y, valued⟩
  | cond _ t _ _ =>
    simp only [stmt, bind_ok, pure_ok] at made
    obtain ⟨y, tested, _, -, _, -, rfl⟩ := made
    cases List.mem_singleton.mp own
    exact ⟨_, List.mem_singleton_self _, y, List.mem_singleton_self y, tested⟩
  | ret _ v =>
    cases v with
    | none => cases own
    | some x =>
      simp only [stmt, bind_ok, pure_ok] at made
      obtain ⟨y, valued, rfl⟩ := made
      cases List.mem_singleton.mp own
      exact ⟨_, List.mem_singleton_self _, y, List.mem_singleton_self y, valued⟩
  | bind _ _ _ _ _ => cases unbound
  | _ => cases own

/-- What an expression of a site mentions, its code mentions. -/
theorem site_mentions {ls : Layouts} {site : Site} {run : List CStmt} (made : stmt ls site.stmt = .ok run) {e : Expr}
    (own : e ∈ site.stmt.exprs) {n : String} (mentions : n ∈ e.idents) :
    ∃ code ∈ ownCode ls site, ∃ x ∈ code.stmt.evaluated, n ∈ x.idents := by
  cases bound : site.stmt.binding? with
  | none =>
    obtain ⟨c, inside, x, evaluates, valued⟩ := stmt_evaluated made bound own
    rw [ownCode_unbound site made bound]
    exact ⟨_, List.mem_map_of_mem inside, x, evaluates, by rwa [expr_idents valued]⟩
  | some binding =>
    obtain ⟨x, t, v⟩ := binding
    have value : e = v := by
      obtain ⟨sp, xs, r, same, -⟩ := Stmt.eq_bind bound
      rw [same] at own
      exact List.mem_singleton.mp own
    subst value
    rw [ownCode_bound site made (by rw [bound]; rfl)]
    rw [stmt_of_binding bound] at made
    obtain ⟨T, c, -, -, valued, rfl⟩ | ⟨m, fs, l, temps, done, args, isLiteral, -, temporariesOk, -, rfl⟩ := binding_cases made
    · refine ⟨⟨x :: site.scope, C.set (.ident x) c⟩, ?_, _, List.mem_singleton_self _, ?_⟩
      · simp [codeSites, CStmt.sites, CStmt.declared]
      · rw [CExpr.idents, expr_idents valued]
        exact List.mem_append_right _ mentions
    · obtain ⟨ts, fits, rfl, -⟩ := temporaries_cases temporariesOk
      obtain ⟨g, isInit, uses⟩ := (mem_initializers e).mp mentions
      rw [Expr.initializers, isLiteral] at isInit
      obtain ⟨field, isField, rfl⟩ := List.mem_map.mp isInit
      obtain ⟨k, atField⟩ := List.getElem?_of_mem isField
      obtain ⟨temp, atTemp, fit⟩ := forall₂_at fits atField
      have assigned : C.set (.ident temp.name) temp.value ∈ ts.flatMap Temporary.code ++
          [C.set (.ident x) (C.call (constructorName m) args)] :=
        List.mem_append_left _ (List.mem_flatMap.mpr ⟨temp, List.mem_of_getElem? atTemp, by simp [Temporary.code]⟩)
      obtain ⟨scope, inside⟩ := C.exists_site assigned (x :: site.scope)
      refine ⟨⟨scope, C.set (.ident temp.name) temp.value⟩, ?_, _, List.mem_singleton_self _, ?_⟩
      · rw [codeSites, codeSites, List.mem_cons, List.mem_append]
        exact .inr (.inr (List.mem_cons_of_mem _ (List.mem_append_left _ inside)))
      · rw [CExpr.idents, expr_idents fit.value]
        exact List.mem_append_right _ uses

end Lower

/-- Where the text of a unit is read back, no identifier means a type. -/
theorem untyped_of_read {name : String} {u : CUnit} (lowered : f.lower name = .ok u)
    {text : Bytes} (read : C.readUnit f.structNames u.name text = some u) : f.Untyped := by
  intro n mentions
  obtain ⟨p, part, isIdent⟩ := List.mem_filterMap.mp mentions
  obtain ⟨site, member, e, own, inside⟩ := File.mem_parts.mp part
  have mentioned : n ∈ e.idents := List.mem_filterMap.mpr ⟨p, inside, isIdent⟩
  obtain ⟨d, isItem, isSite⟩ := mem_fileSites.mp member
  obtain ⟨i, here⟩ := List.getElem?_of_mem isItem
  obtain ⟨ls, params, ret, inner, laid, names, innerOk, atDecl⟩ := Lower.fn_at lowered here
  obtain ⟨run, -, made, -⟩ := Lower.body_reached _ innerOk site isSite
  obtain ⟨code, inCode, x, evaluates, uses⟩ := Lower.site_mentions made own mentioned
  have named := C.readUnit_named read _ (List.mem_of_getElem? atDecl) (paramScope (params.map (·.name)))
  rw [Lower.fn_sites names innerOk] at named
  have object := named code (List.mem_flatMap.mpr ⟨site, isSite, inCode⟩) x evaluates n uses
  exact C.lookup_none_iff.mp (isObjectName_iff.mp object).2.2

end

/-- The texts of the unit of an accepted file and of its header and source are read back as they are, exactly
    if no identifier of the file has the name of a type of C, and the name of the header can stand in an include. -/
theorem read_back_iff (file : Nat) (content : Bytes) (tree : File) (isProgram : Bool) (name : String)
    (parsed : parse (lexemes file content) = .ok tree) (accepted : (tree.check isProgram).errors = 0)
    (apart : tree.Distinguished) : ∃ u, tree.lower name = .ok u ∧
      ((∀ part ∈ [u, u.header, u.source], C.readUnit tree.structNames part.name part.text = some part) ↔
        tree.Untyped ∧ 0x0A ∉ utf8 name ∧ 0x22 ∉ utf8 name) := by
  obtain ⟨valid, u, lowered⟩ := lower_of_accepted parsed accepted name
  have named : tree.WellNamed := parsed_wellNamed parsed
  have head := Lower.unit_head lowered
  refine ⟨u, lowered, ?_⟩
  simp only [List.forall_mem_cons, List.not_mem_nil, false_imp_iff, implies_true, and_true]
  constructor
  · rintro ⟨whole, -, source⟩
    have includes := C.readUnit_includes source _ (List.mem_singleton_self _)
    have line : 0x0A ∉ utf8 (u.name ++ ".h") := includes.inLine
    have quote : 0x22 ∉ utf8 (u.name ++ ".h") := includes.closes
    rw [utf8_append, head.1, List.mem_append, not_or] at line quote
    exact ⟨untyped_of_read lowered whole, line.1, quote.1⟩
  · rintro ⟨untyped, line, quote⟩
    have structs := valid.areStructs named
    have readable := unit_readable valid named apart untyped lowered
    rw [← head.1] at line quote
    exact ⟨readable.read structs, (C.CUnit.header_readable readable).read structs,
      (C.CUnit.source_readable readable line quote).read structs⟩

/-- Signs in a row, an assignment as an operand, a dangling `else`, and a struct that is built and taken apart. -/
def tangled : Bytes :=
  utf8 ("type Pair \x7b left: f64, right: Pair \x7d\nfun twist(p: Pair, x: i64) -> i64:\n" ++
    "    let q: Pair = Pair \x7b right: p, left: 0.5 \x7d\n" ++
    "    if (x = -(-x)) == 1 and !(p.right == nil): if x < 2: return -2 - (x - 1) " ++
    "else: return q.right.left * (x + 1)\n    return x\n")

theorem read_back_tangled : ∃ tree u, parse (lexemes 0 tangled) = .ok tree ∧ (tree.check false).errors = 0 ∧
    tree.Distinguished ∧ tree.floats.length = 1 ∧ tree.lower "app" = .ok u ∧
    ∀ part ∈ [u, u.header, u.source], C.readUnit ["Pair"] part.name part.text = some part := by
  have run : ((parse (lexemes 0 tangled)).toOption.map fun tree => ((tree.check false).errors,
      decide tree.Distinguished, decide tree.Untyped, tree.floats.length, tree.structNames)) =
      some (0, true, true, 1, ["Pair"]) := by
    rw [tangled]
    simp only [utf8_append]
    repeat rw [utf8_ofList]
    decide +kernel
  obtain ⟨tree, parsed, facts⟩ := Lower.ok_of_test run
  simp only [Prod.mk.injEq, decide_eq_true_eq] at facts
  obtain ⟨accepted, apart, untyped, floats, structs⟩ := facts
  obtain ⟨u, lowered, reads⟩ := read_back_iff 0 tangled tree false "app" parsed accepted apart
  have plain : 0x0A ∉ utf8 "app" ∧ 0x22 ∉ utf8 "app" := by decide +kernel
  rw [structs] at reads
  exact ⟨tree, u, parsed, accepted, apart, floats, lowered, reads.mpr ⟨untyped, plain⟩⟩

/-- A function whose only statement calls an undeclared function with the name of a type. -/
def typeCall : Bytes := utf8 "fun main() -> _: int64_t(1)\n"

/-- No object of the file has a struct's name and no name in it is a keyword, but the text of its unit, which
    says `int64_t(1);`, is not read back. -/
theorem read_back_fails : ∃ tree u, parse (lexemes 0 typeCall) = .ok tree ∧ (tree.check true).errors = 0 ∧
    tree.Distinguished ∧ tree.lower "app" = .ok u ∧
    u.decls.map C.Decl.text = [utf8 "void pine_lang_main(void) \x7b\n    int64_t(1);\n\x7d\n"] ∧
    C.readUnit tree.structNames u.name u.text = none := by
  have run : ((parse (lexemes 0 typeCall)).toOption.map fun tree =>
      (decide ((tree.check true).errors = 0 ∧ tree.Distinguished), (tree.lower "app").toOption.map fun u =>
        (u.decls.map C.Decl.text, (C.readUnit tree.structNames u.name u.text).isNone))) =
      some (true, some ([utf8 "void pine_lang_main(void) \x7b\n    int64_t(1);\n\x7d\n"], true)) := by
    rw [typeCall, utf8_ofList, utf8_ofList]
    decide +kernel
  obtain ⟨tree, parsed, facts⟩ := Lower.ok_of_test run
  obtain ⟨clean, code⟩ := Prod.mk.inj facts
  obtain ⟨accepted, apart⟩ := of_decide_eq_true clean
  obtain ⟨u, lowered, texts⟩ := Lower.ok_of_test code
  obtain ⟨text, unread⟩ := Prod.mk.inj texts
  exact ⟨tree, u, parsed, accepted, apart, lowered, text, Option.isNone_iff_eq_none.mp unread⟩

end PineLang
