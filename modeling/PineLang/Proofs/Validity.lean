import Mathlib.Data.List.Perm.Basic
import PineLang.Diag.Bag
import PineLang.Proofs.Lowerable
import PineLang.Proofs.Sites

/-!
The rules of the language as conditions on a file (`File.Valid`), said without the checker: over its
items, its statements and the parts of its expressions. The checker reports nothing exactly on the
files that meet them (`File.check_nil_iff`). It skips some rules after a violation, such as those on a
repeated field or on a literal of another type; what it skips never matters, because the violation
that made it skip is reported.
-/
namespace PineLang

/-! ## The rules -/

/-- A name that can be declared. -/
def FreeName (name : String) : Prop := Check.reservedReason? name = none

/-- The file declares a struct with the name. -/
def File.Declares (f : File) (name : String) : Prop := ∃ d, Item.struct d ∈ f.items ∧ d.name = name

/-- If the type is that of a struct, the struct is declared. -/
def File.HasType (f : File) (t : Ty) : Prop := ∀ n, t = .struct n → f.Declares n

/-- The name, the type and the value of a binding. -/
def Stmt.binding? : Stmt → Option (String × Ty × Expr)
  | .bind _ n _ t v => some (n, t.ty, v)
  | _ => none

/-- The struct and the fields of a struct literal. -/
def Expr.literal? : Expr → Option (String × List FieldInit)
  | .structLit _ n _ fs => some (n, fs)
  | _ => none

/-- The field values of a literal mention no name that hides: neither one of `hidden` nor that of a
    field up to their own. -/
def Unhidden (hidden : List String) (fs : List FieldInit) : Prop :=
  ∀ k f, fs[k]? = some f → ∀ m ∈ f.value.idents, m ∉ hidden ++ (fs.take (k + 1)).map (·.name)

/-- The rules on the fields of a literal that initialises a binding of this name. -/
structure LiteralValid (f : File) (binding struct : String) (fs : List FieldInit) : Prop where
  /-- The literal gives each field of the struct once, in any order. -/
  permuted : ∀ d, Item.struct d ∈ f.items → d.name = struct → (fs.map (·.name)).Perm (d.fields.map (·.name))
  unhidden : Unhidden [] fs
  apart : binding ∉ fs.map (·.name)

/-- The rules on a statement itself, not on the statements inside it. -/
structure Stmt.Valid (f : File) (s : Stmt) : Prop where
  name : ∀ x t v, s.binding? = some (x, t, v) → FreeName x
  type : ∀ x t v, s.binding? = some (x, t, v) → f.HasType t
  /-- A struct literal stands nowhere but as the value of a binding of its own type. -/
  literal : ∀ e ∈ s.exprs, ∀ l ∈ e.parts, ∀ n fs, l.literal? = some (n, fs) →
    ∃ x, s.binding? = some (x, .struct n, l)
  fields : ∀ x t l n fs, s.binding? = some (x, t, l) → l.literal? = some (n, fs) → LiteralValid f x n fs

/-- The rules on a struct. -/
structure StructDecl.Valid (f : File) (d : StructDecl) : Prop where
  name : FreeName d.name
  fieldNames : ∀ p ∈ d.fields, FreeName p.name
  fieldTypes : ∀ p ∈ d.fields, f.HasType p.type.ty
  distinct : (d.fields.map (·.name)).Nodup

/-- The rules on a function. -/
structure FnDecl.Valid (f : File) (d : FnDecl) : Prop where
  name : d.name ≠ "main" → FreeName d.name
  paramNames : ∀ p ∈ d.params, FreeName p.name
  paramTypes : ∀ p ∈ d.params, f.HasType p.type.ty
  ret : f.HasType d.ret.ty
  main : d.name = "main" → d.params = []
  body : ∀ site ∈ d.sites, site.stmt.Valid f

/-- The rules on a file. A program has an entry function. -/
structure File.Valid (f : File) (isProgram : Bool) : Prop where
  /-- No two items share a name. -/
  distinct : (f.items.map fun i => (Check.itemName i).1).Nodup
  structs : ∀ d, Item.struct d ∈ f.items → d.Valid f
  fns : ∀ d, Item.fn d ∈ f.items → d.Valid f
  entry : isProgram = true → ∃ d, Item.fn d ∈ f.items ∧ d.name = "main"

namespace Check

/-! ## Names -/

theorem nameRule_nil_iff {name : String} {span : Span} {role : Role} :
    nameRule name span role = [] ↔ (name = "main" ∧ role = .function) ∨ FreeName name := by
  unfold nameRule FreeName
  by_cases entry : name = "main" ∧ role = .function
  · simp [entry]
  · have other : (name == "main" && role == .function) = false := by simpa using entry
    rw [other]
    cases reason : reservedReason? name with
    | none => simp
    | some text => simp [entry]

/-- Only a function may be called `main`. -/
theorem nameRule_nil_of_role {name : String} {span : Span} {role : Role} (other : role ≠ .function) :
    nameRule name span role = [] ↔ FreeName name := by simp [nameRule_nil_iff, other]

theorem nameRule_fn_nil_iff {name : String} {span : Span} :
    nameRule name span .function = [] ↔ (name ≠ "main" → FreeName name) := by
  rw [nameRule_nil_iff]
  constructor
  · rintro (⟨entry, -⟩ | free) other
    · exact absurd entry other
    · exact free
  · intro free
    by_cases entry : name = "main"
    · exact .inl ⟨entry, rfl⟩
    · exact .inr (free entry)

/-! ## Declarations -/

theorem declare_nil_iff {known : Declared} {i : Item} :
    (declare known i).2 = [] ↔ itemNameRule i = [] ∧ (itemName i).1 ∉ known.places.map (·.1) := by
  constructor
  · intro clean
    refine ⟨?_, (Lower.declare_fresh clean).1⟩
    unfold declare at clean
    simp only at clean
    split at clean
    · exact clean
    · simp at clean
  · rintro ⟨named, fresh⟩
    have unknown : known.places.find? (·.1 == (itemName i).1) = none := by
      rw [List.find?_eq_none]
      intro place inside same
      exact fresh (List.mem_map.mpr ⟨place, inside, by simpa using same⟩)
    unfold declare
    simp only [unknown, named]

/-- Declaring items goes without a violation if their names are free, distinct and new. -/
theorem declareAll_nil_iff : ∀ (items : List Item) (known : Declared), (declareAll known items).2 = [] ↔
    (∀ i ∈ items, itemNameRule i = []) ∧ (items.map fun i => (itemName i).1).Nodup ∧
      ∀ i ∈ items, (itemName i).1 ∉ known.places.map (·.1)
  | [], known => by simp [declareAll]
  | i :: items, known => by
    simp only [declareAll, List.append_eq_nil_iff, List.forall_mem_cons, List.map_cons, List.nodup_cons]
    constructor
    · rintro ⟨first, rest⟩
      obtain ⟨named, fresh⟩ := declare_nil_iff.mp first
      rw [(Lower.declare_fresh first).2, declareAll_nil_iff items] at rest
      obtain ⟨allNamed, distinct, allFresh⟩ := rest
      refine ⟨⟨named, allNamed⟩, ⟨?_, distinct⟩, fresh, ?_⟩
      · intro member
        obtain ⟨j, inside, same⟩ := List.mem_map.mp member
        exact allFresh j inside (by simp [same])
      · intro j inside old
        exact allFresh j inside (by rw [List.map_append]; exact List.mem_append_left _ old)
    · rintro ⟨⟨named, allNamed⟩, ⟨new, distinct⟩, fresh, allFresh⟩
      have first : (declare known i).2 = [] := declare_nil_iff.mpr ⟨named, fresh⟩
      refine ⟨first, ?_⟩
      rw [(Lower.declare_fresh first).2, declareAll_nil_iff items]
      refine ⟨allNamed, distinct, ?_⟩
      intro j inside old
      rw [List.map_append, List.mem_append] at old
      rcases old with old | here
      · exact allFresh j inside old
      · refine new (List.mem_map.mpr ⟨j, inside, ?_⟩)
        simpa using here

/-- The struct that an item declares. -/
def struct? : Item → Option StructDecl
  | .struct d => some d
  | _ => none

/-- The function that an item declares. -/
def fn? : Item → Option FnDecl
  | .fn d => some d
  | _ => none

theorem scope_add (s : Scope) (i : Item) : s.add i = ⟨s.structs ++ (struct? i).toList, s.fns ++ (fn? i).toList⟩ := by
  cases i <;> simp [Scope.add, struct?, fn?]

theorem declareAll_scope : ∀ (items : List Item) (known : Declared), (declareAll known items).2 = [] →
    (declareAll known items).1.scope =
      ⟨known.scope.structs ++ items.filterMap struct?, known.scope.fns ++ items.filterMap fn?⟩
  | [], known, _ => by simp [declareAll]
  | i :: items, known, clean => by
    simp only [declareAll, List.append_eq_nil_iff] at clean ⊢
    obtain ⟨first, rest⟩ := clean
    rw [(Lower.declare_fresh first).2] at rest ⊢
    rw [declareAll_scope items _ rest, scope_add]
    cases structCase : struct? i <;> cases fnCase : fn? i <;> simp [structCase, fnCase]

/-- The scope holds the structs and functions of the file. -/
structure Knows (scope : Scope) (f : File) : Prop where
  structs : ∀ n d, scope.struct? n = some d ↔ Item.struct d ∈ f.items ∧ d.name = n
  fns : ∀ n, (scope.fn? n).isSome ↔ ∃ d, Item.fn d ∈ f.items ∧ d.name = n

theorem mem_structs {items : List Item} {d : StructDecl} : d ∈ items.filterMap struct? ↔ Item.struct d ∈ items := by
  rw [List.mem_filterMap]
  constructor
  · rintro ⟨i, inside, same⟩
    cases i <;> cases same
    exact inside
  · intro inside
    exact ⟨_, inside, rfl⟩

theorem mem_fns {items : List Item} {d : FnDecl} : d ∈ items.filterMap fn? ↔ Item.fn d ∈ items := by
  rw [List.mem_filterMap]
  constructor
  · rintro ⟨i, inside, same⟩
    cases i <;> cases same
    exact inside
  · intro inside
    exact ⟨_, inside, rfl⟩

/-- Of items with distinct names, the first struct with a name is the only one. -/
theorem find_struct : ∀ {items : List Item}, (items.map fun i => (itemName i).1).Nodup → ∀ {d : StructDecl},
    Item.struct d ∈ items → (items.filterMap struct?).find? (·.name == d.name) = some d
  | [], _, _, inside => by cases inside
  | i :: items, distinct, d, inside => by
    rw [List.map_cons, List.nodup_cons] at distinct
    rcases List.mem_cons.mp inside with rfl | later
    · simp [struct?]
    · have tail := find_struct distinct.2 later
      cases i with
      | struct e =>
        have other : e.name ≠ d.name := by
          intro same
          exact distinct.1 (List.mem_map.mpr ⟨_, later, same.symm⟩)
        simpa [struct?, other] using tail
      | _ => simpa [struct?] using tail

theorem knows_of_declared {f : File} (clean : (declareAll {} f.items).2 = []) :
    Knows (declareAll {} f.items).1.scope f := by
  obtain ⟨-, distinct, -⟩ := (declareAll_nil_iff f.items {}).mp clean
  rw [declareAll_scope f.items {} clean]
  refine ⟨?_, ?_⟩
  · intro n d
    simp only [Scope.struct?, List.nil_append]
    constructor
    · intro found
      exact ⟨mem_structs.mp (List.mem_of_find?_eq_some found), by simpa using List.find?_some found⟩
    · rintro ⟨inside, rfl⟩
      exact find_struct distinct inside
  · intro n
    simp only [Scope.fn?, List.nil_append, List.find?_isSome, beq_iff_eq, mem_fns]

theorem Knows.declares {scope : Scope} {f : File} (knows : Knows scope f) (n : String) :
    (scope.struct? n).isSome ↔ f.Declares n := by
  rw [Option.isSome_iff_exists]
  exact exists_congr fun d => knows.structs n d

/-! ## Types -/

theorem typeRule_nil_iff {scope : Scope} {f : File} (knows : Knows scope f) {t : TypeRef} :
    typeRule scope t = [] ↔ f.HasType t.ty := by
  unfold typeRule File.HasType
  cases t.ty with
  | struct n => simp [structRule, knows.declares]
  | _ => simp

/-! ## Struct literals -/

theorem shadowingRule_nil_iff {temps : List String} {f : FieldInit} :
    shadowingRule temps f = [] ↔ ∀ m ∈ f.value.idents, m ∉ temps := by
  have names : (identsIn f.value).map (·.1) = f.value.idents := identsIn_names f.value
  unfold shadowingRule
  split
  · next hit =>
    simp only [true_iff]
    intro m mentioned
    rw [← names] at mentioned
    obtain ⟨p, inside, rfl⟩ := List.mem_map.mp mentioned
    simpa using List.find?_eq_none.mp hit p inside
  · next n span hit =>
    simp only [reduceCtorEq, false_iff]
    intro clear
    have inside := List.mem_of_find?_eq_some hit
    refine clear n ?_ (by simpa using List.find?_some hit)
    rw [← names]
    exact List.mem_map.mpr ⟨_, inside, rfl⟩

theorem fieldNameRule_nil_iff {decl : StructDecl} {temps : List String} {f : FieldInit} :
    fieldNameRule decl temps f = [] ↔ f.name ∈ decl.fields.map (·.name) ∧ f.name ∉ temps := by
  unfold fieldNameRule
  by_cases known : f.name ∈ decl.fields.map (·.name)
  · by_cases given : f.name ∈ temps
    · simp [known, given]
    · simp [known, given]
  · simp [known]

theorem unhidden_cons {hidden : List String} {f : FieldInit} {fs : List FieldInit} :
    Unhidden hidden (f :: fs) ↔
      (∀ m ∈ f.value.idents, m ∉ hidden ++ [f.name]) ∧ Unhidden (hidden ++ [f.name]) fs := by
  unfold Unhidden
  constructor
  · intro clear
    refine ⟨fun m => by simpa using clear 0 f rfl m, ?_⟩
    intro k g at_k m mentioned
    simpa using clear (k + 1) g at_k m mentioned
  · rintro ⟨first, rest⟩ k g at_k m mentioned
    cases k with
    | zero =>
      cases at_k
      simpa using first m mentioned
    | succ k => simpa using rest k g at_k m mentioned

/-- The rules on the fields of a literal: each belongs to the struct and is given once, its value has
    no literal and mentions no name that is hidden by then. -/
theorem fieldsRules_nil_iff {scope : Scope} {decl : StructDecl} : ∀ (fs : List FieldInit) (temps : List String),
    fieldsRules scope decl temps fs = [] ↔
      (∀ f ∈ fs, f.name ∈ decl.fields.map (·.name)) ∧ (∀ f ∈ fs, f.name ∉ temps) ∧ (fs.map (·.name)).Nodup ∧
        NoLiteral (fieldsParts fs) ∧ Unhidden temps fs
  | [], temps => by simp [fieldsRules, fieldsParts, NoLiteral, Unhidden]
  | f :: fs, temps => by
    have parts : fieldsParts (f :: fs) = f.value.parts ++ fieldsParts fs := by cases f; rfl
    simp only [fieldsRules, List.append_eq_nil_iff, fieldNameRule_nil_iff, exprRules_nil_iff, shadowingRule_nil_iff,
      fieldsRules_nil_iff fs, unhidden_cons, parts, noLiteral_append, List.forall_mem_cons, List.map_cons,
      List.nodup_cons]
    constructor
    · rintro ⟨⟨⟨⟨known, fresh⟩, plain⟩, clear⟩, allKnown, allFresh, distinct, allPlain, allClear⟩
      refine ⟨⟨known, allKnown⟩, ⟨fresh, ?_⟩, ⟨?_, distinct⟩, ⟨plain, allPlain⟩, clear, allClear⟩
      · intro g inside old
        exact allFresh g inside (List.mem_append_left _ old)
      · intro again
        obtain ⟨g, inside, same⟩ := List.mem_map.mp again
        exact allFresh g inside (by simp [same])
    · rintro ⟨⟨known, allKnown⟩, ⟨fresh, allFresh⟩, ⟨new, distinct⟩, ⟨plain, allPlain⟩, clear, allClear⟩
      refine ⟨⟨⟨⟨known, fresh⟩, plain⟩, clear⟩, allKnown, ?_, distinct, allPlain, allClear⟩
      intro g inside old
      rcases List.mem_append.mp old with old | here
      · exact allFresh g inside old
      · exact new (List.mem_map.mpr ⟨g, inside, by simpa using here⟩)

/-- Distinct names that are all of the fields are the fields in some order. -/
theorem perm_iff {given fields : List String} (distinct : fields.Nodup) :
    given.Perm fields ↔ (∀ n ∈ given, n ∈ fields) ∧ given.Nodup ∧ ∀ n ∈ fields, n ∈ given := by
  constructor
  · intro perm
    exact ⟨fun n => perm.mem_iff.mp, perm.nodup_iff.mpr distinct, fun n => perm.mem_iff.mpr⟩
  · rintro ⟨known, once, complete⟩
    rw [List.perm_ext_iff_of_nodup once distinct]
    exact fun n => ⟨known n, complete n⟩

/-- The rules on a literal of a declared struct. -/
theorem literalRules_nil_iff {scope : Scope} {f : File} (knows : Knows scope f) {decl : StructDecl}
    (declared : Item.struct decl ∈ f.items) (distinct : (decl.fields.map (·.name)).Nodup) {name : String}
    {nameSpan structSpan : Span} {fs : List FieldInit} :
    literalRules scope name nameSpan decl.name structSpan fs = [] ↔
      NoLiteral (fieldsParts fs) ∧ LiteralValid f name decl.name fs := by
  have found : scope.struct? decl.name = some decl := (knows.structs _ _).mpr ⟨declared, rfl⟩
  have only : ∀ d, Item.struct d ∈ f.items → d.name = decl.name → d = decl := by
    intro d inside same
    have again := (knows.structs _ _).mpr ⟨inside, same⟩
    exact Option.some.inj (again.symm.trans found)
  have gaps : ((decl.fields.map (·.name)).filter fun n => !(fs.map (·.name)).contains n).isEmpty = true ↔
      ∀ n ∈ decl.fields.map (·.name), n ∈ fs.map (·.name) := by
    rw [List.isEmpty_iff, List.filter_eq_nil_iff]
    simp
  simp only [literalRules, found, List.append_eq_nil_iff, fieldsRules_nil_iff]
  constructor
  · rintro ⟨⟨⟨known, -, once, plain, clear⟩, noGap⟩, noClash⟩
    have complete := gaps.mp (by
      split at noGap
      · assumption
      · cases noGap)
    refine ⟨plain, ⟨?_, clear, ?_⟩⟩
    · intro d inside same
      rw [only d inside same, perm_iff distinct]
      exact ⟨by simpa using known, once, complete⟩
    · intro clash
      have : (fs.map (·.name)).contains name = true := by simpa using clash
      simp only [this, if_true] at noClash
      cases noClash
  · rintro ⟨plain, valid⟩
    obtain ⟨known, once, complete⟩ := (perm_iff distinct).mp (valid.permuted decl declared rfl)
    refine ⟨⟨⟨by simpa using known, by simp, once, plain, valid.unhidden⟩, ?_⟩, ?_⟩
    · rw [if_pos (gaps.mpr complete)]
    · have : (fs.map (·.name)).contains name = false := by simpa using valid.apart
      simp only [this, Bool.false_eq_true, if_false]

/-! ## Statements -/

mutual

theorem sizeOf_parts {x : Expr} : ∀ (e : Expr), x ∈ e.parts → sizeOf x ≤ sizeOf e
  | .ident _ _, inside | .lit _ _, inside | .absent _, inside | .hollow _ _, inside => by
    exact Nat.le_of_eq (congrArg sizeOf (List.mem_singleton.mp inside))
  | .assign _ a b, inside | .binary _ _ a b, inside => by
    rcases List.mem_cons.mp inside with rfl | inner
    · exact Nat.le_refl _
    · simp only [Expr.assign.sizeOf_spec, Expr.binary.sizeOf_spec]
      rcases List.mem_append.mp inner with left | right
      · have := sizeOf_parts a left
        omega
      · have := sizeOf_parts b right
        omega
  | .call _ f args, inside => by
    rcases List.mem_cons.mp inside with rfl | inner
    · exact Nat.le_refl _
    · simp only [Expr.call.sizeOf_spec]
      rcases List.mem_append.mp inner with left | right
      · have := sizeOf_parts f left
        omega
      · have := sizeOf_exprsParts args right
        omega
  | .member _ x' _ _, inside | .unary _ _ x', inside | .group _ x', inside => by
    rcases List.mem_cons.mp inside with rfl | inner
    · exact Nat.le_refl _
    · have := sizeOf_parts x' inner
      simp only [Expr.member.sizeOf_spec, Expr.unary.sizeOf_spec, Expr.group.sizeOf_spec]
      omega
  | .structLit _ _ _ fs, inside => by
    rcases List.mem_cons.mp inside with rfl | inner
    · exact Nat.le_refl _
    · have := sizeOf_fieldsParts fs inner
      simp only [Expr.structLit.sizeOf_spec]
      omega

theorem sizeOf_exprsParts {x : Expr} : ∀ (es : List Expr), x ∈ exprsParts es → sizeOf x ≤ sizeOf es
  | [], inside => by cases inside
  | e :: es, inside => by
    simp only [List.cons.sizeOf_spec]
    rcases List.mem_append.mp inside with first | rest
    · have := sizeOf_parts e first
      omega
    · have := sizeOf_exprsParts es rest
      omega

theorem sizeOf_fieldParts {x : Expr} : ∀ (f : FieldInit), x ∈ f.parts → sizeOf x ≤ sizeOf f
  | .mk _ _ v, inside => by
    have := sizeOf_parts v inside
    simp only [FieldInit.mk.sizeOf_spec]
    omega

theorem sizeOf_fieldsParts {x : Expr} : ∀ (fs : List FieldInit), x ∈ fieldsParts fs → sizeOf x ≤ sizeOf fs
  | [], inside => by cases inside
  | f :: fs, inside => by
    simp only [List.cons.sizeOf_spec]
    rcases List.mem_append.mp inside with first | rest
    · have := sizeOf_fieldParts f first
      omega
    · have := sizeOf_fieldsParts fs rest
      omega

end

/-- A literal is not inside itself. -/
theorem structLit_notMem {s ns : Span} {n : String} {fs : List FieldInit} :
    Expr.structLit s n ns fs ∉ fieldsParts fs := by
  intro inside
  have := sizeOf_fieldsParts fs inside
  simp only [Expr.structLit.sizeOf_spec] at this
  omega

/-- Where a statement does not bind a literal, the rule on literals is that it has none. -/
theorem noLiteral_iff {s : Stmt} {e : Expr} (only : s.exprs = [e])
    (plain : ∀ x t v, s.binding? = some (x, t, v) → v.literal? = none) :
    NoLiteral e.parts ↔ ∀ e' ∈ s.exprs, ∀ l ∈ e'.parts, ∀ n fs, l.literal? = some (n, fs) →
      ∃ x, s.binding? = some (x, .struct n, l) := by
  rw [only]
  simp only [List.mem_singleton, forall_eq]
  constructor
  · intro none l inside n fs isLiteral
    cases l with
    | structLit sp m ns gs => exact absurd inside (none sp m ns gs)
    | _ => cases isLiteral
  · intro placed sp n ns fs inside
    obtain ⟨x, bound⟩ := placed _ inside n fs rfl
    cases plain _ _ _ bound

/-- The rules on a statement that binds nothing. -/
theorem unbound_valid_iff {f : File} {s : Stmt} (unbound : s.binding? = none) :
    s.Valid f ↔ ∀ e ∈ s.exprs, ∀ l ∈ e.parts, ∀ n fs, l.literal? = some (n, fs) →
      ∃ x, s.binding? = some (x, .struct n, l) := by
  constructor
  · exact Stmt.Valid.literal
  · intro literal
    exact ⟨by simp [unbound], by simp [unbound], literal, by simp [unbound]⟩

/-- The rules on a binding whose value is a literal. -/
theorem initRules_literal_nil_iff {scope : Scope} {f : File} (knows : Knows scope f)
    (distinct : ∀ d, Item.struct d ∈ f.items → (d.fields.map (·.name)).Nodup) {x n : String} {xs s ns : Span}
    {t : TypeRef} {fs : List FieldInit} (declared : f.HasType t.ty) :
    initRules scope x xs t (.structLit s n ns fs) = [] ↔
      t.ty = .struct n ∧ NoLiteral (fieldsParts fs) ∧ LiteralValid f x n fs := by
  rw [initRules]
  by_cases same : t.ty = .struct n
  · obtain ⟨decl, inside, rfl⟩ := declared n same
    rw [if_pos same, literalRules_nil_iff knows inside (distinct decl inside)]
    simp [same]
  · simp [same]

/-- The rule on literals at a binding of a literal: the type is its own, and no literal is inside. -/
theorem literal_placed_iff {sp xs s ns : Span} {x n : String} {t : TypeRef} {fs : List FieldInit} :
    (∀ e ∈ (Stmt.bind sp x xs t (.structLit s n ns fs)).exprs, ∀ l ∈ e.parts, ∀ m gs, l.literal? = some (m, gs) →
      ∃ y, (Stmt.bind sp x xs t (.structLit s n ns fs)).binding? = some (y, .struct m, l)) ↔
    t.ty = .struct n ∧ NoLiteral (fieldsParts fs) := by
  simp only [Stmt.exprs, Stmt.binding?, List.mem_singleton, forall_eq, Option.some.injEq, Prod.mk.injEq]
  constructor
  · intro placed
    refine ⟨?_, ?_⟩
    · obtain ⟨_, _, same, _⟩ := placed _ (self_mem_parts _) n fs rfl
      exact same
    · intro s' m ms gs inside
      obtain ⟨_, _, _, same⟩ := placed _ (List.mem_cons_of_mem _ inside) m gs rfl
      rw [← same] at inside
      exact structLit_notMem inside
  · rintro ⟨same, none⟩ l inside m gs isLiteral
    rcases List.mem_cons.mp inside with rfl | inner
    · cases isLiteral
      exact ⟨x, rfl, same, rfl⟩
    · cases l with
      | structLit s' m' ms' gs' => exact absurd inner (none s' m' ms' gs')
      | _ => cases isLiteral

theorem bind_valid_iff {scope : Scope} {f : File} (knows : Knows scope f)
    (distinct : ∀ d, Item.struct d ∈ f.items → (d.fields.map (·.name)).Nodup) {sp xs : Span} {x : String}
    {t : TypeRef} {v : Expr} : ownRules scope (.bind sp x xs t v) = [] ↔ (Stmt.bind sp x xs t v).Valid f := by
  simp only [ownRules, List.append_eq_nil_iff, nameRule_nil_of_role (show Role.binding ≠ .function by decide),
    typeRule_nil_iff knows]
  have split : (Stmt.bind sp x xs t v).Valid f ↔ (FreeName x ∧ f.HasType t.ty) ∧
      (∀ e ∈ (Stmt.bind sp x xs t v).exprs, ∀ l ∈ e.parts, ∀ n fs, l.literal? = some (n, fs) →
        ∃ y, (Stmt.bind sp x xs t v).binding? = some (y, .struct n, l)) ∧
      ∀ n fs, v.literal? = some (n, fs) → LiteralValid f x n fs := by
    constructor
    · intro valid
      exact ⟨⟨valid.name _ _ _ rfl, valid.type _ _ _ rfl⟩, valid.literal, fun n fs => valid.fields _ _ _ n fs rfl⟩
    · rintro ⟨⟨name, type⟩, literal, fields⟩
      refine ⟨?_, ?_, literal, ?_⟩
      · rintro _ _ _ ⟨⟩
        exact name
      · rintro _ _ _ ⟨⟩
        exact type
      · rintro _ _ _ n fs ⟨⟩
        exact fields n fs
  rw [split]
  refine and_congr_right fun named => ?_
  by_cases plain : v.literal? = none
  · have whole := noLiteral_iff (s := .bind sp x xs t v) rfl (by rintro _ _ _ ⟨⟩; exact plain)
    have rules : initRules scope x xs t v = exprRules scope v := by
      cases v with
      | structLit _ _ _ _ => cases plain
      | _ => rfl
    rw [rules, exprRules_nil_iff, whole]
    simp [plain]
  · cases v with
    | structLit s n ns fs =>
      rw [initRules_literal_nil_iff knows distinct named.2, literal_placed_iff, and_assoc]
      simp [Expr.literal?]
    | _ => exact absurd rfl plain

/-- The rules on a statement find nothing exactly if it keeps them. -/
theorem ownRules_nil_iff {scope : Scope} {f : File} (knows : Knows scope f)
    (distinct : ∀ d, Item.struct d ∈ f.items → (d.fields.map (·.name)).Nodup) (s : Stmt) :
    ownRules scope s = [] ↔ s.Valid f := by
  have single {s : Stmt} {e : Expr} (only : s.exprs = [e]) (unbound : s.binding? = none)
      (rules : ownRules scope s = exprRules scope e) : ownRules scope s = [] ↔ s.Valid f := by
    rw [rules, exprRules_nil_iff, unbound_valid_iff unbound]
    exact noLiteral_iff only (by simp [unbound])
  have bare {s : Stmt} (empty : s.exprs = []) (unbound : s.binding? = none) (rules : ownRules scope s = []) :
      ownRules scope s = [] ↔ s.Valid f := by
    rw [rules, unbound_valid_iff unbound, empty]
    simp
  cases s with
  | expr _ x => exact single rfl rfl rfl
  | cond _ t _ _ => exact single rfl rfl rfl
  | ret _ v =>
    cases v with
    | none => exact bare rfl rfl rfl
    | some x => exact single rfl rfl rfl
  | bind sp x xs t v => exact bind_valid_iff knows distinct
  | _ => exact bare rfl rfl rfl

/-! ## Items -/

theorem structFieldsRules_nil_iff {scope : Scope} {f : File} (knows : Knows scope f) :
    ∀ (ps : List Param) (seen : List (String × Span)), structFieldsRules scope seen ps = [] ↔
      (∀ p ∈ ps, FreeName p.name) ∧ (∀ p ∈ ps, f.HasType p.type.ty) ∧ (ps.map (·.name)).Nodup ∧
        ∀ p ∈ ps, p.name ∉ seen.map (·.1)
  | [], seen => by simp [structFieldsRules]
  | p :: ps, seen => by
    rw [structFieldsRules]
    cases again : seen.find? (·.1 == p.name) with
    | some place =>
      have given : p.name ∈ seen.map (·.1) :=
        List.mem_map.mpr ⟨place, List.mem_of_find?_eq_some again, by simpa using List.find?_some again⟩
      simp only [reduceCtorEq, List.forall_mem_cons, false_iff]
      intro valid
      exact valid.2.2.2.1 given
    | none =>
      have fresh : p.name ∉ seen.map (·.1) := by
        intro given
        obtain ⟨place, inside, same⟩ := List.mem_map.mp given
        exact List.find?_eq_none.mp again place inside (by simpa using same)
      simp only [List.append_eq_nil_iff, nameRule_nil_of_role (show Role.field ≠ .function by decide),
        typeRule_nil_iff knows, structFieldsRules_nil_iff knows ps, List.forall_mem_cons, List.map_cons,
        List.nodup_cons]
      constructor
      · rintro ⟨⟨name, type⟩, names, types, distinct, allFresh⟩
        refine ⟨⟨name, names⟩, ⟨type, types⟩, ⟨?_, distinct⟩, fresh, ?_⟩
        · intro twice
          obtain ⟨q, inside, same⟩ := List.mem_map.mp twice
          exact allFresh q inside (by simp [same])
        · intro q inside old
          exact allFresh q inside (by rw [List.map_append]; exact List.mem_append_left _ old)
      · rintro ⟨⟨name, names⟩, ⟨type, types⟩, ⟨once, distinct⟩, -, allFresh⟩
        refine ⟨⟨name, type⟩, names, types, distinct, ?_⟩
        intro q inside old
        rw [List.map_append, List.mem_append] at old
        rcases old with old | here
        · exact allFresh q inside old
        · exact once (List.mem_map.mpr ⟨q, inside, by simpa using here⟩)

theorem struct_valid_iff {scope : Scope} {f : File} (knows : Knows scope f) (d : StructDecl) :
    itemNameRule (.struct d) = [] ∧ itemRules scope (.struct d) = [] ↔ d.Valid f := by
  rw [itemNameRule, nameRule_nil_of_role (by decide), itemRules, structFieldsRules_nil_iff knows]
  constructor
  · rintro ⟨name, names, types, distinct, -⟩
    exact ⟨name, names, types, distinct⟩
  · intro valid
    exact ⟨valid.name, valid.fieldNames, valid.fieldTypes, valid.distinct, by simp⟩

theorem mainRule_nil_iff {d : FnDecl} : mainRule d = [] ↔ (d.name = "main" → d.params = []) := by
  unfold mainRule
  cases d.params with
  | nil => simp
  | cons p ps => simp

theorem fn_valid_iff {scope : Scope} {f : File} (knows : Knows scope f)
    (distinct : ∀ d, Item.struct d ∈ f.items → (d.fields.map (·.name)).Nodup) (d : FnDecl) :
    itemNameRule (.fn d) = [] ∧ itemRules scope (.fn d) = [] ↔ d.Valid f := by
  have body : bodyRules scope d.body = [] ↔ ∀ site ∈ d.sites, site.stmt.Valid f := by
    rw [bodyRules_nil_iff scope (paramScope (d.params.map (·.name)))]
    exact forall₂_congr fun site _ => ownRules_nil_iff knows distinct site.stmt
  have params : d.params.flatMap (paramRules scope) = [] ↔
      (∀ p ∈ d.params, FreeName p.name) ∧ ∀ p ∈ d.params, f.HasType p.type.ty := by
    simp only [List.flatMap_eq_nil_iff, paramRules, List.append_eq_nil_iff, typeRule_nil_iff knows,
      nameRule_nil_of_role (show Role.parameter ≠ .function by decide)]
    exact forall₂_and
  simp only [itemNameRule, nameRule_fn_nil_iff, itemRules, List.append_eq_nil_iff, mainRule_nil_iff, params,
    typeRule_nil_iff knows, body]
  constructor
  · rintro ⟨name, ⟨⟨main, names, types⟩, ret⟩, sites⟩
    exact ⟨name, names, types, ret, main, sites⟩
  · intro valid
    exact ⟨valid.name, ⟨⟨valid.main, valid.paramNames, valid.paramTypes⟩, valid.ret⟩, valid.body⟩

theorem entryRule_nil_iff {scope : Scope} {f : File} (knows : Knows scope f) :
    entryRule scope f = [] ↔ ∃ d, Item.fn d ∈ f.items ∧ d.name = "main" := by
  rw [← knows.fns]
  unfold entryRule
  split <;> simp_all

end Check

/-! ## Files -/

theorem File.check_found_nil (f : File) (isProgram : Bool) : (f.check isProgram).found = [] ↔
    (Check.declareAll {} f.items).2 = [] ∧
      (∀ i ∈ f.items, Check.itemRules (Check.declareAll {} f.items).1.scope i = []) ∧
      (isProgram = true → Check.entryRule (Check.declareAll {} f.items).1.scope f = []) := by
  simp only [f.check_found, List.append_eq_nil_iff, List.flatMap_eq_nil_iff, and_assoc]
  cases isProgram <;> simp

/-- The checker finds nothing exactly in the files that keep the rules. -/
theorem File.check_nil_iff (f : File) (isProgram : Bool) : (f.check isProgram).found = [] ↔ f.Valid isProgram := by
  rw [File.check_found_nil]
  constructor
  · rintro ⟨declared, items, entry⟩
    obtain ⟨names, distinct, -⟩ := (Check.declareAll_nil_iff f.items {}).mp declared
    have knows := Check.knows_of_declared declared
    have structs : ∀ d, Item.struct d ∈ f.items → d.Valid f := fun d inside =>
      (Check.struct_valid_iff knows d).mp ⟨names _ inside, items _ inside⟩
    refine ⟨distinct, structs, ?_, ?_⟩
    · intro d inside
      exact (Check.fn_valid_iff knows (fun e inside' => (structs e inside').distinct) d).mp
        ⟨names _ inside, items _ inside⟩
    · intro program
      exact (Check.entryRule_nil_iff knows).mp (entry program)
  · intro valid
    have named : ∀ i ∈ f.items, Check.itemNameRule i = [] := by
      intro i inside
      cases i with
      | fn d => exact Check.nameRule_fn_nil_iff.mpr (valid.fns d inside).name
      | struct d => exact (Check.nameRule_nil_of_role (by decide)).mpr (valid.structs d inside).name
      | _ => rfl
    have declared : (Check.declareAll {} f.items).2 = [] :=
      (Check.declareAll_nil_iff f.items {}).mpr ⟨named, valid.distinct, by simp⟩
    have knows := Check.knows_of_declared declared
    refine ⟨declared, ?_, ?_⟩
    · intro i inside
      cases i with
      | fn d =>
        exact ((Check.fn_valid_iff knows (fun e inside' => (valid.structs e inside').distinct) d).mpr
          (valid.fns d inside)).2
      | struct d => exact ((Check.struct_valid_iff knows d).mpr (valid.structs d inside)).2
      | _ => rfl
    · intro program
      exact (Check.entryRule_nil_iff knows).mpr (valid.entry program)

theorem File.errors_eq_zero_iff (f : File) (isProgram : Bool) : (f.check isProgram).errors = 0 ↔ f.Valid isProgram := by
  rw [f.check_errors, List.length_eq_zero_iff]
  exact f.check_nil_iff isProgram

/-- A parsed file that is accepted is valid and has a C unit. -/
theorem lower_of_accepted {file : Nat} {content : Bytes} {tree : File} {isProgram : Bool}
    (parsed : parse (lexemes file content) = .ok tree) (accepted : (tree.check isProgram).errors = 0) (name : String) :
    tree.Valid isProgram ∧ ∃ u, tree.lower name = .ok u := by
  have clean : (tree.check isProgram).found = [] :=
    List.length_eq_zero_iff.mp (tree.check_errors isProgram ▸ accepted)
  exact ⟨(tree.check_nil_iff isProgram).mp clean, File.lower_ok (complete_of_parse parsed) clean name⟩

theorem File.Valid.stmt {f : File} {isProgram : Bool} (valid : f.Valid isProgram) {site : Site}
    (member : site ∈ f.sites) : site.stmt.Valid f := by
  obtain ⟨d, inItems, inFn⟩ := mem_fileSites.mp member
  exact (valid.fns d inItems).body site inFn

/-! ## Bindings -/

theorem Stmt.eq_bind {s : Stmt} {x : String} {t : Ty} {v : Expr} (bound : s.binding? = some (x, t, v)) :
    ∃ sp xs r, s = .bind sp x xs r v ∧ r.ty = t := by
  cases s with
  | bind sp y ys r w =>
    cases bound
    exact ⟨sp, ys, r, rfl, rfl⟩
  | _ => cases bound

/-! ## Free names -/

/-- The names of constructors cannot be declared. -/
theorem constructorName_not_free (struct : String) : ¬ FreeName (Lower.constructorName struct) := by
  have ending : Check.constructorEnding.toList.isSuffixOf (Lower.constructorName struct).toList = true := by
    rw [List.isSuffixOf_iff_suffix, Lower.constructorName, String.toList_append]
    exact List.suffix_append ..
  unfold FreeName Check.reservedReason?
  simp only [ending, if_true]
  split
  · simp
  · split <;> simp

/-- The locals of a valid file have names that can be declared. -/
theorem File.Valid.scope_free {f : File} {isProgram : Bool} (valid : f.Valid isProgram) {site : Site}
    (member : site ∈ f.sites) {n : String} (visible : n ∈ site.scope) : FreeName n := by
  obtain ⟨d, inItems, inFn⟩ := mem_fileSites.mp member
  have fn := valid.fns d inItems
  rcases d.body.scopeFrom _ site inFn n visible with given | ⟨other, inside, declared⟩
  · obtain ⟨p, isParam, rfl⟩ := List.mem_map.mp (List.mem_reverse.mp given)
    exact fn.paramNames p isParam
  · cases bound : other.stmt with
    | bind sp x xs t v =>
      rw [bound] at declared
      rw [List.mem_singleton.mp declared]
      exact (fn.body other inside).name x t.ty v (by rw [bound]; rfl)
    | _ =>
      rw [bound] at declared
      cases declared

/-! ## Reports -/

/-- A bag without a limit keeps everything. -/
theorem Bag.addAll_unlimited (ds : List Diagnostic) : ∀ kept : List Diagnostic,
    ((Bag.mk 0 kept).addAll ds).items = kept ++ ds := by
  induction ds with
  | nil => simp [Bag.addAll]
  | cons d ds ih =>
    intro kept
    have step : (Bag.mk 0 kept).addAll (d :: ds) = (Bag.mk 0 (kept ++ [d])).addAll ds := by
      simp [Bag.addAll, Bag.add, Bag.isFull]
    rw [step, ih, List.append_assoc, List.singleton_append]

/-- A file is accepted exactly if it keeps the rules, and every error that is counted is reported
    once: a bag without a limit receives as many diagnostics as there are errors. -/
theorem check_accepts_iff (f : File) (isProgram : Bool) :
    ((f.check isProgram).errors = 0 ↔ f.Valid isProgram) ∧
    ∀ kept : List Diagnostic, ((Bag.mk 0 kept).addAll (f.check isProgram).found).items.length =
      kept.length + (f.check isProgram).errors := by
  refine ⟨f.errors_eq_zero_iff isProgram, ?_⟩
  intro kept
  rw [Bag.addAll_unlimited, List.length_append, f.check_errors]

end PineLang
