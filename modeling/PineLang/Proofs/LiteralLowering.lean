import Mathlib.Data.List.Forall2
import Mathlib.Data.List.Nodup
import PineLang.Proofs.BlockScoping
import PineLang.Proofs.Utf8

/-!
What the code of a struct literal does. The temporaries of the fields are declared one after the other,
each before the value it is assigned is evaluated, so a value may only mention names that none of them
has; the rules on literals ask for no more (`Unhidden`). The code then evaluates the values in the order
of the literal as if there were no temporaries, calls the constructor once with them in the order of the
declaration, and leaves nothing behind but the new object (`LiteralCode.runs_block`).
-/
namespace PineLang

namespace C.Semantics
variable {V H : Type} (sem : Semantics V H)

/-- What the constructor gets for a field of the struct: the value that the literal gives to the field
    of that name, as one of the type of the field. -/
def Passed (fields : List FieldInit) (vs : List V) (p : Param) (a : V) : Prop :=
  ∃ (k : Nat) (f : FieldInit) (t : CType) (v : V), fields[k]? = some f ∧ f.name = p.name ∧ vs[k]? = some v ∧
    Lower.ty p.type.ty = .ok t ∧ a = sem.convert t v

/-- From `s` to `s'`, the values of a literal are evaluated once each in the order of the literal, the
    constructor is called once with the value of every field of the struct, in the order of the
    declaration, and what it returns is assigned to a variable. -/
def Builds (x : String) (struct : StructDecl) (fields : List FieldInit) (cs : List CExpr) (s s' : State V H) : Prop :=
  ∃ vs t args r h, sem.InOrder cs s vs t ∧ List.Forall₂ (sem.Passed fields vs) struct.fields args ∧
    sem.Calls (Lower.constructorName struct.name) args t.heap r h ∧
    s' = ({ t with heap := h }).store x (sem.convert (.ptr (.struct struct.name)) r)

end C.Semantics

namespace Lower
open C (CType CExpr CStmt CParam Local State Semantics)

/-! ## Temporaries -/

/-- A temporary, and the value that it is assigned. -/
structure Temporary where
  name : String
  type : CType
  value : CExpr

/-- The code of a temporary. -/
def Temporary.code (t : Temporary) : List CStmt := [.var t.name t.type, C.set (.ident t.name) t.value]

/-- The temporary is that of a field of a literal. -/
structure Temporary.Fits (l : Layout) (f : FieldInit) (t : Temporary) : Prop where
  name : t.name = f.name
  type : l.memberType? f.name = some t.type
  value : expr f.value = .ok t.value

/-- Lowering the fields of a literal gives a temporary to each, in their order. -/
theorem temporaries_cases {l : Layout} : ∀ {fs : List FieldInit} {done all : List String} {code : List CStmt},
    temporaries l done fs = .ok (code, all) → ∃ ts, List.Forall₂ (Temporary.Fits l) fs ts ∧
      code = ts.flatMap Temporary.code ∧ all = done ++ ts.map (·.name)
  | [], done, all, code, made => by
    cases made
    exact ⟨[], .nil, rfl, by simp⟩
  | .mk f s v :: fs, done, all, code, made => by
    unfold temporaries at made
    split at made
    · cases made
    · next t typed =>
      split at made
      · cases made
      · simp only [bind_ok, pure_ok] at made
        obtain ⟨c, valued, ⟨more, _⟩, rest, same⟩ := made
        cases same
        obtain ⟨ts, fits, rfl, rfl⟩ := temporaries_cases rest
        refine ⟨⟨f, t, c⟩ :: ts, .cons ⟨rfl, typed, valued⟩ fits, rfl, ?_⟩
        simp

theorem constructorArgs_eq {l : Layout} {done : List String} {args : List CExpr}
    (made : constructorArgs l done = .ok args) : args = (l.members.map (·.name)).map .ident := by
  unfold constructorArgs at made
  rw [mapM_ok_iff] at made
  generalize l.members = members at made ⊢
  induction made with
  | nil => rfl
  | cons here _ ih =>
    split at here
    · cases here
      rw [ih, List.map_cons, List.map_cons]
    · cases here

section
variable {V H : Type} {sem : Semantics V H} {l : Layout}

/-- The variables that the temporaries are once they hold their values, the last one innermost. -/
def filled (sem : Semantics V H) (ts : List Temporary) (vs : List V) : List (String × Local V) :=
  (ts.zip vs).reverse.map fun x => (x.1.name, ⟨x.1.type, some (sem.convert x.1.type x.2)⟩)

theorem filled_cons (t : Temporary) (ts : List Temporary) (v : V) (vs : List V) :
    filled sem (t :: ts) (v :: vs) = filled sem ts vs ++ [(t.name, ⟨t.type, some (sem.convert t.type v)⟩)] := by
  simp [filled]

theorem filled_names {ts : List Temporary} {vs : List V} (full : vs.length = ts.length) :
    (filled sem ts vs).map (·.1) = (ts.map (·.name)).reverse := by
  unfold filled
  rw [List.map_reverse, List.map_reverse, List.map_map]
  have first : ts = (ts.zip vs).map (·.1) := (List.map_fst_zip (Nat.le_of_eq full.symm)).symm
  conv_rhs => rw [first, List.map_map]
  rfl

/-- Running temporaries evaluates their values in order as if the temporaries were not there. The
    temporaries so far are inside the other variables; they are among the hidden names, and no value to
    come mentions one of those. -/
theorem runs_temporaries {fs : List FieldInit} {ts : List Temporary} (fits : List.Forall₂ (Temporary.Fits l) fs ts) :
    ∀ {hidden : List String}, Unhidden hidden fs → ∀ {temps : List (String × Local V)},
      (∀ n ∈ temps.map (·.1), n ∈ hidden) → ∀ {rest : List CStmt} {s s' : State V H},
        (sem.Runs (ts.flatMap Temporary.code ++ rest) (s.push temps) s' ↔
          ∃ vs t, sem.InOrder (ts.map (·.value)) s vs t ∧ sem.Runs rest (t.push (filled sem ts vs ++ temps)) s') := by
  induction fits with
  | nil =>
    intro hidden _ temps _ rest s s'
    constructor
    · intro run
      exact ⟨[], s, ⟨rfl, rfl⟩, run⟩
    · rintro ⟨vs, t, ⟨rfl, rfl⟩, run⟩
      exact run
  | @cons f t fs ts here _ ih =>
    intro hidden clear temps among rest s s'
    obtain ⟨first, later⟩ := Check.unhidden_cons.mp clear
    have apart : ∀ n ∈ t.value.idents, n ∉ t.name :: temps.map (·.1) := by
      intro n mentioned hides
      rw [expr_idents here.value] at mentioned
      refine first n mentioned ?_
      rcases List.mem_cons.mp hides with own | before
      · exact List.mem_append_right _ (by rw [own, here.name]; exact List.mem_singleton_self _)
      · exact List.mem_append_left _ (among n before)
    have among' (v : Option V) :
        ∀ n ∈ ((t.name, (⟨t.type, v⟩ : Local V)) :: temps).map (·.1), n ∈ hidden ++ [f.name] := by
      intro n isTemp
      rcases List.mem_cons.mp isTemp with own | before
      · exact List.mem_append_right _ (by rw [own, here.name]; exact List.mem_singleton_self _)
      · exact List.mem_append_left _ (among n before)
    rw [List.flatMap_cons, Temporary.code, List.append_assoc, List.cons_append, List.singleton_append,
      Semantics.runs_temporary apart]
    simp only [ih later (among' _), List.map_cons, Semantics.InOrder]
    constructor
    · rintro ⟨o, evaluated, vs, u, values, run⟩
      refine ⟨o.value :: vs, u, ⟨o, vs, evaluated, rfl, values⟩, ?_⟩
      rw [filled_cons, List.append_assoc]
      exact run
    · rintro ⟨_, u, ⟨o, vs, evaluated, rfl, values⟩, run⟩
      refine ⟨o, evaluated, vs, u, values, ?_⟩
      rw [filled_cons, List.append_assoc] at run
      exact run

/-! ## The call of the constructor -/

/-- Assigning what a call returns to an outer variable, inside a block with variables of its own. -/
theorem runs_build {x f : String} {xs : List String} {args : List V} {inner : List (String × Local V)}
    {s s' : State V H} {v : Local V} (apart : x ∉ inner.map (·.1)) (target : s.view x = some v)
    (unhidden : (s.push inner).view f = none)
    (given : List.Forall₂ (fun y a => ∃ t, (s.push inner).view y = some ⟨t, some a⟩) xs args) :
    sem.Runs [C.set (.ident x) (C.call f (xs.map .ident))] (s.push inner) s' ↔
      ∃ r h, sem.Calls f args s.heap r h ∧
        s' = (({ s with heap := h }).store x (sem.convert v.type r)).push inner := by
  have visible : (s.push inner).view x = some v := by rw [State.view_push apart, target]
  have stored (r : V) (h : H) :
      (s.push inner).after ⟨sem.convert v.type r, [] ++ [(x, sem.convert v.type r)], h⟩ =
        (({ s with heap := h }).store x (sem.convert v.type r)).push inner := by
    rw [State.push_after (by simpa using apart)]
    rfl
  simp only [C.set, Semantics.runs_expr_iff, Semantics.runs_nil_iff, sem.assign visible, sem.call unhidden given,
    State.push_heap]
  constructor
  · rintro ⟨_, ⟨_, ⟨r, h, called, rfl⟩, rfl⟩, rfl⟩
    exact ⟨r, h, called, stored r h⟩
  · rintro ⟨r, h, called, rfl⟩
    exact ⟨_, ⟨_, ⟨r, h, called, rfl⟩, rfl⟩, (stored r h).symm⟩

/-! ## The arguments -/

theorem memberType_of_mem (distinct : (l.members.map (·.name)).Nodup) {m : CParam} (inside : m ∈ l.members) :
    l.memberType? m.name = some m.type := by
  obtain ⟨t, found⟩ := memberType_ok (List.mem_map_of_mem inside)
  unfold Layout.memberType? at found ⊢
  obtain ⟨other, hit, -⟩ := Option.map_eq_some_iff.mp found
  have isMember : other ∈ l.members := List.mem_reverse.mp (List.mem_of_find?_eq_some hit)
  have same : other = m := List.inj_on_of_nodup_map distinct isMember inside (by simpa using List.find?_some hit)
  rw [hit, same]
  rfl

theorem fits_names {fs : List FieldInit} {ts : List Temporary} (fits : List.Forall₂ (Temporary.Fits l) fs ts) :
    ts.map (·.name) = fs.map (·.name) := by
  induction fits with
  | nil => rfl
  | cons here _ ih => rw [List.map_cons, List.map_cons, ih, here.name]

theorem exists_forall₂ {α β : Type} {R : α → β → Prop} : ∀ {xs : List α}, (∀ x ∈ xs, ∃ y, R x y) →
    ∃ ys, List.Forall₂ R xs ys
  | [], _ => ⟨[], .nil⟩
  | x :: xs, each => by
    rw [List.forall_mem_cons] at each
    obtain ⟨y, first⟩ := each.1
    obtain ⟨ys, rest⟩ := exists_forall₂ each.2
    exact ⟨y :: ys, .cons first rest⟩

theorem forall₂_joined {α β γ : Type} {R : α → β → Prop} {S : α → γ → Prop} {T : β → γ → Prop} {xs : List α}
    {ys : List β} (left : List.Forall₂ R xs ys) : ∀ {zs : List γ}, List.Forall₂ S xs zs →
      (∀ x, ∀ y ∈ ys, ∀ z, R x y → S x z → T y z) → List.Forall₂ T ys zs := by
  induction left with
  | nil =>
    rintro zs ⟨⟩ _
    exact .nil
  | cons here _ ih =>
    rintro zs (_ | ⟨here', rest⟩) join
    exact .cons (join _ _ (List.mem_cons_self ..) _ here here')
      (ih rest fun x y inside => join x y (List.mem_cons_of_mem _ inside))

/-- A literal that keeps the rules, the struct that it builds, with its members, and the temporaries that
    its fields become. -/
structure LiteralCode (struct : StructDecl) (members : List CParam) (fields : List FieldInit) (ts : List Temporary) :
    Prop where
  made : struct.fields.mapM param = .ok members
  distinct : (struct.fields.map (·.name)).Nodup
  permuted : (fields.map (·.name)).Perm (struct.fields.map (·.name))
  unhidden : Unhidden [] fields
  fits : List.Forall₂ (Temporary.Fits ⟨struct.name, members⟩) fields ts

namespace LiteralCode
variable {struct : StructDecl} {members : List CParam} {fields : List FieldInit} {ts : List Temporary} {vs : List V}

/-- The fields of a literal give each field of the struct a value. -/
theorem exists_passed (code : LiteralCode struct members fields ts) (full : vs.length = ts.length) :
    ∃ args, List.Forall₂ (sem.Passed fields vs) struct.fields args := by
  refine exists_forall₂ fun p inside => ?_
  obtain ⟨j, atParam⟩ := List.getElem?_of_mem inside
  obtain ⟨m, -, here⟩ := forall₂_at (mapM_ok_iff.mp code.made) atParam
  obtain ⟨t, typed, -⟩ := bind_ok.mp here
  obtain ⟨f, given, named⟩ := List.mem_map.mp (code.permuted.mem_iff.mpr (List.mem_map_of_mem inside))
  obtain ⟨k, atField⟩ := List.getElem?_of_mem given
  have inValues : k < vs.length := by
    rw [full, ← code.fits.length_eq]
    exact (List.getElem?_eq_some_iff.mp atField).1
  exact ⟨_, k, f, t, vs[k], atField, named, List.getElem?_eq_getElem inValues, typed, rfl⟩

/-- The temporary of a field holds what the constructor gets for that field. -/
theorem view_filled (code : LiteralCode struct members fields ts) (full : vs.length = ts.length) {p : Param}
    {m : CParam} (inside : m ∈ members) (here : param p = .ok m) {a : V} (passed : sem.Passed fields vs p a)
    (s : State V H) : (s.push (filled sem ts vs)).view m.name = some ⟨m.type, some a⟩ := by
  obtain ⟨t, typed, same⟩ := bind_ok.mp here
  cases pure_ok.mp same
  obtain ⟨k, f, t', v, atField, named, atValue, typed', rfl⟩ := passed
  cases Except.ok.inj (typed.symm.trans typed')
  obtain ⟨temp, atTemp, fit⟩ := forall₂_at code.fits atField
  have ownType : temp.type = t := by
    have distinct : ((⟨struct.name, members⟩ : Layout).members.map (·.name)).Nodup := by
      rw [params_names code.made]
      exact code.distinct
    have found := fit.type
    rw [named] at found
    exact Option.some.inj (found.symm.trans (memberType_of_mem distinct inside))
  refine C.lookup_of_mem ?_ ?_
  · rw [filled_names full, List.nodup_reverse, fits_names code.fits]
    exact code.permuted.nodup_iff.mpr code.distinct
  · refine List.mem_map.mpr ⟨(temp, v), List.mem_reverse.mpr ?_, ?_⟩
    · exact List.mem_of_getElem? (List.getElem?_zip_eq_some.mpr ⟨atTemp, atValue⟩)
    · simp only [fit.name, named, ownType]

/-! ## The block -/

/-- The call in the block, once the temporaries hold the values of the fields. -/
theorem runs_construct (code : LiteralCode struct members fields ts) {x : String} {s s' : State V H} {v : Local V}
    (apart : x ∉ fields.map (·.name)) (visible : s.view x = some v)
    (unhidden : constructorName struct.name ∉ fields.map (·.name) ++ s.names)
    (full : vs.length = ts.length) {args : List V} (passed : List.Forall₂ (sem.Passed fields vs) struct.fields args) :
    sem.Runs [C.set (.ident x) (C.call (constructorName struct.name) ((members.map (·.name)).map .ident))]
        (s.push (filled sem ts vs)) s' ↔
      ∃ r h, sem.Calls (constructorName struct.name) args s.heap r h ∧
        s' = (({ s with heap := h }).store x (sem.convert v.type r)).push (filled sem ts vs) := by
  have names : (filled sem ts vs).map (·.1) = (fields.map (·.name)).reverse := by
    rw [filled_names full, fits_names code.fits]
  refine runs_build ?_ visible (State.view_eq_none ?_) ?_
  · rw [names, List.mem_reverse]
    exact apart
  · rw [State.names, State.push, List.map_append, names, List.mem_append, List.mem_reverse, ← State.names,
      ← List.mem_append]
    exact unhidden
  · rw [List.forall₂_map_left_iff]
    refine forall₂_joined (mapM_ok_iff.mp code.made) passed fun p m inside a here gets => ?_
    exact ⟨m.type, code.view_filled full inside here gets s⟩

/-- The block of a literal does what the literal says, from any state in which the variable has just
    been declared and where no variable hides the constructor. -/
theorem runs_block (code : LiteralCode struct members fields ts) {x : String} (apart : x ∉ fields.map (·.name))
    {s : State V H}
    (unhidden : constructorName struct.name ∉ fields.map (·.name) ++ x :: s.names) (s' : State V H) :
    sem.Runs [.block (ts.flatMap Temporary.code ++ [C.set (.ident x) (C.call (constructorName struct.name)
        ((members.map (·.name)).map .ident))])] (s.declare x (.ptr (.struct struct.name))) s' ↔
      sem.Builds x struct fields (ts.map (·.value)) (s.declare x (.ptr (.struct struct.name))) s' := by
  generalize entered : s.declare x (.ptr (.struct struct.name)) = d
  have declared : d.types = (x, .ptr (.struct struct.name)) :: s.types := by
    rw [← entered]
    rfl
  have temps (rest : List CStmt) (u : State V H) : sem.Runs (ts.flatMap Temporary.code ++ rest) d u ↔
      ∃ vs t, sem.InOrder (ts.map (·.value)) d vs t ∧ sem.Runs rest (t.push (filled sem ts vs)) u := by
    have above : sem.Runs (ts.flatMap Temporary.code ++ rest) (d.push []) u ↔ _ :=
      runs_temporaries code.fits code.unhidden (by simp)
    simpa only [State.push_nil, List.append_nil] using above
  -- evaluating the values keeps the variables, so the new one is still there for the constructor's result
  have construct {vs : List V} {t : State V H} (values : sem.InOrder (ts.map (·.value)) d vs t) {args : List V}
      (passed : List.Forall₂ (sem.Passed fields vs) struct.fields args) (u : State V H) :
      sem.Runs [C.set (.ident x) (C.call (constructorName struct.name) ((members.map (·.name)).map .ident))]
          (t.push (filled sem ts vs)) u ↔
        ∃ r h, sem.Calls (constructorName struct.name) args t.heap r h ∧
          u = (({ t with heap := h }).store x (sem.convert (.ptr (.struct struct.name)) r)).push
            (filled sem ts vs) := by
    have types : t.types = (x, .ptr (.struct struct.name)) :: s.types :=
      (Semantics.inOrder_types values).trans declared
    have names : t.names = x :: s.names := by rw [t.names_eq, types, List.map_cons, ← s.names_eq]
    obtain ⟨v, visible, typed⟩ : ∃ v, t.view x = some v ∧ v.type = .ptr (.struct struct.name) := by
      have byType := t.view_type x
      rw [types, List.lookup_cons_self] at byType
      exact Option.map_eq_some_iff.mp byType
    rw [← typed]
    exact code.runs_construct apart visible (names ▸ unhidden)
      ((Semantics.inOrder_length values).trans (List.length_map ..)) passed
  have size {t : State V H} {vs : List V} (values : sem.InOrder (ts.map (·.value)) d vs t) (h : H) (v : V) :
      (({ t with heap := h }).store x v).vars.length = d.vars.length := by
    rw [State.vars_length, State.vars_length, State.store_types, ← Semantics.inOrder_types values]
    rfl
  simp only [Semantics.runs_block_iff, Semantics.runs_nil_iff, temps]
  constructor
  · rintro ⟨u, ⟨vs, t, values, run⟩, rfl⟩
    obtain ⟨args, passed⟩ : ∃ args, List.Forall₂ (sem.Passed fields vs) struct.fields args :=
      code.exists_passed ((Semantics.inOrder_length values).trans (List.length_map ..))
    obtain ⟨r, h, called, rfl⟩ := (construct values passed u).mp run
    exact ⟨vs, t, args, r, h, values, passed, called, State.leave_push _ (size values h _)⟩
  · rintro ⟨vs, t, args, r, h, values, passed, called, rfl⟩
    exact ⟨_, ⟨vs, t, values, (construct values passed _).mpr ⟨r, h, called, rfl⟩⟩,
      (State.leave_push _ (size values h _)).symm⟩

end LiteralCode
end

end Lower

/-! ## Valid files -/

namespace Lower
open C (CType CExpr CStmt CParam CUnit State Semantics)

/-- The code that the binding of a literal becomes in a valid file. -/
theorem literal_code {f : File} {isProgram : Bool} (valid : f.Valid isProgram) {name : String} {u : CUnit}
    (lowered : f.lower name = .ok u) {site : Site} (member : site ∈ f.sites) {x struct : String} {t : Ty} {v : Expr}
    {fields : List FieldInit} (bound : site.stmt.binding? = some (x, t, v))
    (isLiteral : v.literal? = some (struct, fields)) :
    ∃ decl members ts, Item.struct decl ∈ f.items ∧ decl.name = struct ∧
      constructor ⟨decl.name, members⟩ ∈ u.decls ∧ LiteralCode decl members fields ts ∧
      Counterpart f u site [.var x (.ptr (.struct decl.name)), .block (ts.flatMap Temporary.code ++
        [C.set (.ident x) (C.call (constructorName decl.name) ((members.map (·.name)).map .ident))])] := by
  have rules := valid.stmt member
  -- the literal has the type of its binding, and that type is declared
  have placed : t = .struct struct := by
    have own : v ∈ site.stmt.exprs := by
      obtain ⟨sp, xs, r, same, -⟩ := Stmt.eq_bind bound
      rw [same]
      exact List.mem_singleton_self _
    obtain ⟨y, bound'⟩ := rules.literal v own v (self_mem_parts v) struct fields isLiteral
    cases bound.symm.trans bound'
    rfl
  obtain ⟨decl, isItem, named⟩ := rules.type x t v bound struct placed
  have literal := rules.fields x t v struct fields bound isLiteral
  obtain ⟨run, i, e, ls, params, ret, inner, rest, here, inFn', atDecl, laid, made, inside⟩ :=
    exists_counterpart lowered member
  obtain ⟨ls', decls, laid', -, all⟩ := lower_cases lowered
  cases Except.ok.inj (laid.symm.trans laid')
  obtain ⟨members, membersOk, found⟩ := layouts_find laid isItem
  have code := made
  rw [stmt_of_binding bound] at code
  rcases binding_cases code with ⟨_, _, plain, -⟩ |
    ⟨n, fs, l, temps, done, args, isLiteral', found', tempsOk, argsOk, rfl⟩
  · rw [isLiteral] at plain
    cases plain
  · cases isLiteral.symm.trans isLiteral'
    subst named
    cases Option.some.inj (found.symm.trans found')
    obtain ⟨ts, fits, rfl, -⟩ := temporaries_cases tempsOk
    rw [constructorArgs_eq argsOk] at made inside
    refine ⟨decl, members, ts, isItem, rfl, ?_, ⟨membersOk, (valid.structs decl isItem).distinct,
      literal.permuted decl isItem rfl, literal.unhidden, fits⟩, ?_⟩
    · rw [all]
      exact List.mem_append_right _ (List.mem_map_of_mem (List.mem_of_find?_eq_some found))
    · exact ⟨i, e, ls, params, ret, inner, rest, here, inFn', atDecl, laid, made, inside⟩

end Lower

/-- Every binding of a struct literal in an accepted file becomes a declaration and a block. From any
    state in which the variable has just been declared, the block evaluates the values of the literal
    once each in its order, as if no temporary existed, calls the constructor of the struct once with the
    values in the order of the declaration, and assigns the result; other variables stay as the values
    left them. -/
theorem literal_lowering (file : Nat) (content : Bytes) (tree : File) (isProgram : Bool) (name : String)
    (parsed : parse (lexemes file content) = .ok tree) (accepted : (tree.check isProgram).errors = 0) :
    ∃ u, tree.lower name = .ok u ∧
      ∀ site ∈ tree.sites, ∀ x t v struct fields,
        site.stmt.binding? = some (x, t, v) → v.literal? = some (struct, fields) →
          ∃ decl members inner cs, Item.struct decl ∈ tree.items ∧ decl.name = struct ∧
            decl.fields.mapM Lower.param = .ok members ∧ Lower.constructor ⟨decl.name, members⟩ ∈ u.decls ∧
            List.Forall₂ (fun f c => Lower.expr f.value = .ok c) fields cs ∧
            Lower.Counterpart tree u site [.var x (.ptr (.struct decl.name)), .block inner] ∧
            ∀ (V H : Type) (sem : C.Semantics V H) (s s' : C.State V H), s.names = site.scope →
              (sem.Runs [.block inner] (s.declare x (.ptr (.struct decl.name))) s' ↔
                sem.Builds x decl fields cs (s.declare x (.ptr (.struct decl.name))) s') := by
  obtain ⟨valid, u, lowered⟩ := lower_of_accepted parsed accepted name
  refine ⟨u, lowered, ?_⟩
  intro site member x t v struct fields bound isLiteral
  obtain ⟨decl, members, ts, isItem, named, made, code, counterpart⟩ :=
    Lower.literal_code valid lowered member bound isLiteral
  have rules := valid.stmt member
  have literal := rules.fields x t v struct fields bound isLiteral
  refine ⟨decl, members, _, ts.map (·.value), isItem, named, code.made, made, ?_, counterpart, ?_⟩
  · rw [List.forall₂_map_right_iff]
    exact code.fits.imp fun f temp fit => fit.value
  · intro V H sem s s' visible
    refine code.runs_block literal.apart ?_ s'
    rw [visible]
    -- no name that can be declared is the constructor's
    intro hides
    refine constructorName_not_free decl.name ?_
    rcases List.mem_append.mp hides with isField | isLocal
    · obtain ⟨p, inStruct, same⟩ := List.mem_map.mp (code.permuted.mem_iff.mp isField)
      rw [← same]
      exact (valid.structs decl isItem).fieldNames p inStruct
    · rcases List.mem_cons.mp isLocal with own | outer
      · rw [own]
        exact rules.name x t v bound
      · exact valid.scope_free member outer

/-- A literal whose order is not that of the struct, with a field of the name of a variable that another
    field mentions. -/
def swapped : Bytes :=
  utf8 ("type Point \x7b x: i64, y: i64 \x7d\nfun main() -> _:\n    let x: i64 = 7\n" ++
    "    let p: Point = Point \x7b y: x, x: 2 \x7d\n")

/-- The site is the binding of the literal. -/
def isSwapped (site : Site) : Bool :=
  match site.scope, site.stmt with
  | ["x"], .bind _ "p" _ _ (.structLit _ "Point" _ [.mk "y" _ (.ident _ "x"), .mk "x" _ (.lit _ (.int 2 _))]) => true
  | _, _ => false

/-- What the example takes from its tree. -/
theorem swapped_tree : ∃ tree, parse (lexemes 0 swapped) = .ok tree ∧ (tree.check true).errors = 0 ∧
    (∃ site ∈ tree.sites, isSwapped site = true) ∧
    ∀ d, Item.struct d ∈ tree.items → d.fields.map (fun p => (p.name, p.type.ty)) = [("x", .i64), ("y", .i64)] := by
  have run : ((parse (lexemes 0 swapped)).toOption.map fun tree =>
      ((tree.check true).errors, tree.sites.any isSwapped,
        (tree.items.filterMap Check.struct?).map fun d => d.fields.map fun p => (p.name, p.type.ty))) =
      some (0, true, [[("x", .i64), ("y", .i64)]]) := by
    rw [swapped, utf8_append, utf8_ofList, utf8_ofList]
    decide +kernel
  obtain ⟨tree, parsed, facts⟩ := Lower.ok_of_test run
  simp only [Prod.mk.injEq] at facts
  obtain ⟨accepted, found, structs⟩ := facts
  refine ⟨tree, parsed, accepted, ?_, ?_⟩
  · simpa using found
  · intro d inside
    have isStruct : d ∈ tree.items.filterMap Check.struct? := Check.mem_structs.mpr inside
    have member := List.mem_map_of_mem (f := fun d => d.fields.map fun p => (p.name, p.type.ty)) isStruct
    rw [structs] at member
    exact List.mem_singleton.mp member

/-- The constructor gets 2 and 7, in the order of the struct, and the variable `x` is still 7. -/
theorem literal_lowering_swapped : ∃ tree u site inner, parse (lexemes 0 swapped) = .ok tree ∧
    (tree.check true).errors = 0 ∧ tree.lower "app" = .ok u ∧ site ∈ tree.sites ∧
    Lower.Counterpart tree u site [.var "p" (.ptr (.struct "Point")), .block inner] ∧
    C.recording.Runs [.block inner] ⟨[("p", ⟨.ptr (.struct "Point"), none⟩), ("x", ⟨.i64, some 7⟩)], []⟩
      ⟨[("p", ⟨.ptr (.struct "Point"), some 0⟩), ("x", ⟨.i64, some 7⟩)], [("_Point__internal__new_gc", [2, 7])]⟩ := by
  obtain ⟨tree, parsed, accepted, ⟨site, member, isHere⟩, structs⟩ := swapped_tree
  obtain ⟨u, lowered, each⟩ := literal_lowering 0 swapped tree true "app" parsed accepted
  unfold isSwapped at isHere
  split at isHere
  · next scope code =>
    obtain ⟨decl, members, inner, cs, isItem, named, -, -, values, counterpart, runs⟩ :=
      each site member _ _ _ _ _ (by rw [code]; rfl) rfl
    rw [named] at counterpart runs
    refine ⟨tree, u, site, inner, parsed, accepted, lowered, member, counterpart, ?_⟩
    obtain ⟨px, rest, both, isX, more⟩ := List.map_eq_cons_iff.mp (structs decl isItem)
    obtain ⟨py, nothing, one, isY, last⟩ := List.map_eq_cons_iff.mp more
    rw [one, List.map_eq_nil_iff.mp last] at both
    obtain ⟨xName, xType⟩ := Prod.mk.inj isX
    obtain ⟨yName, yType⟩ := Prod.mk.inj isY
    rcases values with _ | ⟨⟨⟩, _ | ⟨⟨⟩, ⟨⟩⟩⟩
    refine (runs Int C.CallLog C.recording ⟨[("x", ⟨.i64, some 7⟩)], []⟩ _ scope.symm).mpr ?_
    refine ⟨[7, 2], _, [2, 7], 0, _, ⟨⟨7, [], []⟩, [2], rfl, rfl, ⟨2, [], []⟩, [], rfl, rfl, rfl, rfl⟩, ?_,
      ⟨rfl, rfl⟩, ?_⟩
    · rw [both]
      refine .cons ⟨1, _, .i64, 2, rfl, xName.symm, rfl, ?_, rfl⟩
        (.cons ⟨0, _, .i64, 7, rfl, yName.symm, rfl, ?_, rfl⟩ .nil)
      · rw [xType, Lower.ty]
      · rw [yType, Lower.ty]
    · rw [named]
      rfl
  · cases isHere

end PineLang
