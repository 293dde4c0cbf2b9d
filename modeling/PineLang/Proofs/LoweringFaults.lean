import PineLang.Proofs.BuiltTrees
import PineLang.Proofs.LoweredUnit

/-!
# Faults of lowering

A fault of lowering that is about a node names one that is not there (`file_fails`). So a tree that was put
together by the constructors is either lowered as a whole or refused with a fault that says what is wrong with
it (`lowering_total`); that a node has no content, for which lowering has no words, never comes up.
-/
namespace PineLang

/-- A node without content. -/
def Hole.IsHollow : Hole → Prop
  | hollowExpr _ | hollowStmt _ | hollowItem _ => True
  | _ => False

namespace Lower
open C (CType CExpr CStmt CParam Decl CUnit)

/-! ## Faults and holes -/

/-- The fault is due to one of the holes, if it is about a node at all. -/
def Due (hs : List Hole) : LowerFault → Prop
  | .exprMissing id => .expr id ∈ hs
  | .stmtMissing id => .stmt id ∈ hs
  | .itemMissing id => .item id ∈ hs
  | .fileMissing _ => False
  | .hollow | .exprKind _ | .stmtKind | .itemKind _ => ∃ h ∈ hs, h.IsHollow
  | _ => True

/-- Every fault is due to one of the holes. -/
def Fails {α : Type} (hs : List Hole) (x : Except LowerFault α) : Prop := ∀ e, x = .error e → Due hs e

variable {α β : Type} {hs hs' : List Hole}

theorem Due.mono {e : LowerFault} (due : Due hs e) (more : hs ⊆ hs') : Due hs' e := by
  cases e with
  | exprMissing id => exact more due
  | stmtMissing id => exact more due
  | itemMissing id => exact more due
  | fileMissing id => exact due
  | hollow | exprKind _ | stmtKind | itemKind _ =>
    obtain ⟨h, member, isHollow⟩ := due
    exact ⟨h, more member, isHollow⟩
  | _ => trivial

theorem Fails.mono {x : Except LowerFault α} (fails : Fails hs x) (more : hs ⊆ hs') : Fails hs' x :=
  fun e failed => (fails e failed).mono more

theorem fails_ok (a : α) : Fails hs (.ok a) := by
  intro e failed
  cases failed

theorem fails_error {e : LowerFault} (due : Due hs e) : Fails hs (.error e : Except LowerFault α) := by
  intro e' failed
  cases failed
  exact due

theorem fails_bind {x : Except LowerFault α} {g : α → Except LowerFault β} (first : Fails hs x)
    (more : ∀ a, Fails hs (g a)) : Fails hs (x >>= g) := by
  intro e failed
  cases x with
  | error fault =>
    have same : (.error fault : Except LowerFault β) = .error e := failed
    cases same
    exact first e rfl
  | ok a => exact more a e failed

theorem fails_mapM {g : α → Except LowerFault β} : ∀ {xs : List α}, (∀ x ∈ xs, Fails hs (g x)) → Fails hs (xs.mapM g)
  | [], _ => fails_ok []
  | x :: xs, each => by
    rw [List.mapM_cons]
    refine fails_bind (each x (List.mem_cons_self ..)) fun y => ?_
    exact fails_bind (fails_mapM fun x' member => each x' (List.mem_cons_of_mem x member)) fun ys => fails_ok (y :: ys)

/-! ## Parts without nodes -/

theorem ty_fails (t : Ty) : Fails hs (ty t) := by
  cases t with
  | other k => exact fails_error trivial
  | _ => exact fails_ok _

theorem param_fails (p : Param) : Fails hs (param p) := fails_bind (ty_fails p.type.ty) fun _ => fails_ok _

theorem params_fails (ps : List Param) : Fails hs (ps.mapM param) := fails_mapM fun p _ => param_fails p

theorem literal_fails (v : Literal) : Fails hs (literal v) := by
  cases v with
  | other k t => exact fails_error trivial
  | _ => exact fails_ok _

theorem binaryOp_fails (op : BinaryOp) : Fails hs (binaryOp op) := by
  cases op with
  | other k => exact fails_error trivial
  | _ => exact fails_ok _

/-! ## Expressions -/

mutual

theorem expr_fails : ∀ x : Expr, Fails x.holes (expr x)
  | .ident _ n => fails_ok _
  | .lit _ v => literal_fails v
  | .assign _ a b => by
    rw [expr, Expr.holes]
    refine fails_bind ((expr_fails a).mono (List.subset_append_left ..)) fun _ => ?_
    exact fails_bind ((expr_fails b).mono (List.subset_append_right ..)) fun _ => fails_ok _
  | .call _ f args => by
    rw [expr, Expr.holes]
    refine fails_bind ((exprs_fails args).mono (List.subset_append_right ..)) fun _ => ?_
    exact fails_bind ((expr_fails f).mono (List.subset_append_left ..)) fun _ => fails_ok _
  | .member _ t f _ => by
    rw [expr, Expr.holes]
    exact fails_bind (expr_fails t) fun _ => fails_ok _
  | .unary _ op x => by
    rw [expr, Expr.holes]
    exact fails_bind (expr_fails x) fun _ => fails_ok _
  | .binary _ op a b => by
    rw [expr, Expr.holes]
    refine fails_bind (binaryOp_fails op) fun _ => ?_
    refine fails_bind ((expr_fails a).mono (List.subset_append_left ..)) fun _ => ?_
    exact fails_bind ((expr_fails b).mono (List.subset_append_right ..)) fun _ => fails_ok _
  | .group _ x => by
    rw [expr, Expr.holes]
    exact expr_fails x
  | .structLit _ n _ _ => fails_error trivial
  | .absent id => fails_error (List.mem_singleton.mpr rfl)
  | .hollow _ k => by
    have isHollow : ∃ h ∈ [Hole.hollowExpr k], h.IsHollow := ⟨_, List.mem_singleton.mpr rfl, trivial⟩
    rw [expr, Expr.holes]
    split
    · exact fails_error isHollow
    · exact fails_error isHollow

theorem exprs_fails : ∀ xs : List Expr, Fails (exprHoles xs) (exprs xs)
  | [] => fails_ok []
  | x :: xs => by
    rw [exprs, exprHoles]
    refine fails_bind ((expr_fails x).mono (List.subset_append_left ..)) fun _ => ?_
    exact fails_bind ((exprs_fails xs).mono (List.subset_append_right ..)) fun _ => fails_ok _

end

theorem temporaries_fails (l : Layout) : ∀ (fs : List FieldInit) (done : List String),
    Fails (fieldHoles fs) (temporaries l done fs)
  | [], done => fails_ok _
  | .mk f s v :: fs, done => by
    rw [temporaries, fieldHoles, FieldInit.holes]
    split
    · exact fails_error trivial
    · split
      · exact fails_error trivial
      · refine fails_bind ((expr_fails v).mono (List.subset_append_left ..)) fun _ => ?_
        exact fails_bind ((temporaries_fails l fs _).mono (List.subset_append_right ..)) fun _ => fails_ok _

theorem constructorArgs_fails (l : Layout) (done : List String) : Fails hs (constructorArgs l done) := by
  refine fails_mapM fun m _ => ?_
  split
  · exact fails_ok _
  · exact fails_error trivial

theorem structInit_fails (ls : Layouts) (target struct : String) (fs : List FieldInit) :
    Fails (fieldHoles fs) (structInit ls target struct fs) := by
  unfold structInit
  split
  · exact fails_error trivial
  · refine fails_bind (temporaries_fails _ fs []) fun _ => ?_
    exact fails_bind (constructorArgs_fails _ _) fun _ => fails_ok _

theorem binding_fails (ls : Layouts) (n : String) (t : Ty) (v : Expr) : Fails v.holes (binding ls n t v) := by
  unfold binding
  split
  · exact structInit_fails ls n _ _
  · exact fails_error ⟨_, List.mem_singleton.mpr rfl, trivial⟩
  · exact fails_bind (ty_fails t) fun _ => fails_bind (expr_fails v) fun _ => fails_ok _

/-! ## Statements -/

mutual

theorem stmt_fails (ls : Layouts) : ∀ s : Stmt, Fails s.holes (stmt ls s)
  | .block _ ss => by
    rw [stmt, Stmt.holes]
    exact fails_bind (stmts_fails ls ss) fun _ => fails_ok _
  | .expr _ x => by
    rw [stmt, Stmt.holes]
    exact fails_bind (expr_fails x) fun _ => fails_ok _
  | .cond _ t yes no => by
    rw [stmt, Stmt.holes]
    have test : t.holes ⊆ t.holes ++ yes.holes ++ elseHoles no :=
      List.subset_append_of_subset_left _ (List.subset_append_left ..)
    have first : yes.holes ⊆ t.holes ++ yes.holes ++ elseHoles no :=
      List.subset_append_of_subset_left _ (List.subset_append_right ..)
    refine fails_bind ((expr_fails t).mono test) fun _ => ?_
    refine fails_bind ((body_fails ls yes).mono first) fun _ => ?_
    exact fails_bind ((otherwise_fails ls no).mono (List.subset_append_right ..)) fun _ => fails_ok _
  | .ret _ none => fails_ok _
  | .ret _ (some x) => by
    rw [stmt, Stmt.holes]
    exact fails_bind (expr_fails x) fun _ => fails_ok _
  | .brk _ => fails_ok _
  | .empty _ => fails_ok _
  | .loop _ b => by
    rw [stmt, Stmt.holes]
    exact fails_bind (body_fails ls b) fun _ => fails_ok _
  | .bind _ n _ t v => by
    rw [stmt, Stmt.holes]
    exact binding_fails ls n t.ty v
  | .absent id => fails_error (List.mem_singleton.mpr rfl)
  | .hollow _ k => by
    have isHollow : ∃ h ∈ [Hole.hollowStmt k], h.IsHollow := ⟨_, List.mem_singleton.mpr rfl, trivial⟩
    rw [stmt, Stmt.holes]
    split
    · exact fails_error isHollow
    · exact fails_error isHollow

theorem body_fails (ls : Layouts) : ∀ b : Body, Fails b.holes (body ls b)
  | .block _ ss => by
    rw [body, Body.holes]
    exact stmts_fails ls ss
  | .stray id s => by
    rw [Body.holes]
    unfold body
    split
    · next same => cases same
    · next same =>
      cases same
      exact fails_error ⟨_, List.mem_singleton.mpr rfl, trivial⟩
    · exact fails_error trivial

theorem otherwise_fails (ls : Layouts) : ∀ no : Option Body, Fails (elseHoles no) (otherwise ls no)
  | none => fails_ok _
  | some b => by
    rw [otherwise, elseHoles]
    exact fails_bind (body_fails ls b) fun _ => fails_ok _

theorem stmts_fails (ls : Layouts) : ∀ ss : List Stmt, Fails (stmtHoles ss) (stmts ls ss)
  | [] => fails_ok []
  | s :: ss => by
    rw [stmts, stmtHoles]
    refine fails_bind ((stmt_fails ls s).mono (List.subset_append_left ..)) fun _ => ?_
    exact fails_bind ((stmts_fails ls ss).mono (List.subset_append_right ..)) fun _ => fails_ok _

end

/-! ## Files -/

theorem layouts_fails : ∀ (items : List Item) (known : Layouts), Fails (items.flatMap Item.holes) (layouts known items)
  | [], known => fails_ok known
  | i :: items, known => by
    have rest (known : Layouts) : Fails ((i :: items).flatMap Item.holes) (layouts known items) :=
      (layouts_fails items known).mono (by rw [List.flatMap_cons]; exact List.subset_append_right ..)
    unfold layouts
    split
    · next same => cases same
    · next d _ same =>
      cases same
      refine fails_bind (params_fails d.fields) fun _ => ?_
      dsimp only
      split
      · exact fails_error trivial
      · exact rest _
    · next same =>
      cases same
      exact fails_error ⟨_, List.mem_cons_self .., trivial⟩
    · next same =>
      cases same
      exact rest known

theorem item_fails (ls : Layouts) (i : Item) : Fails i.holes (item ls i) := by
  cases i with
  | fn d =>
    refine fails_bind (params_fails d.params) fun _ => ?_
    refine fails_bind (ty_fails d.ret.ty) fun _ => ?_
    exact fails_bind (body_fails ls d.body) fun _ => fails_ok _
  | struct d => exact fails_ok _
  | absent id => exact fails_error (List.mem_singleton.mpr rfl)
  | hollow s k =>
    have isHollow : ∃ h ∈ [Hole.hollowItem k], h.IsHollow := ⟨_, List.mem_singleton.mpr rfl, trivial⟩
    rw [item, Item.holes]
    split
    · exact fails_error isHollow
    · exact fails_error isHollow

/-- What stops the lowering of a file and is about a node is about one of its holes. -/
theorem file_fails (f : File) (name : String) : Fails f.holes (f.lower name) := by
  refine fails_bind (layouts_fails f.items []) fun ls => ?_
  refine fails_bind (fails_mapM fun i member => (item_fails ls i).mono ?_) fun _ => fails_ok _
  exact fun h inside => List.mem_flatMap_of_mem member inside

end Lower

/-- The text says that a tree is malformed. -/
def TellsMalformed (text : String) : Prop := ∃ detail, text = "malformed AST: " ++ detail

theorem TellsMalformed.append {text : String} (tells : TellsMalformed text) (more : String) :
    TellsMalformed (text ++ more) := by
  obtain ⟨detail, rfl⟩ := tells
  exact ⟨detail ++ more, String.append_assoc⟩

/-- Every fault has a message, but for a node without content. -/
theorem LowerFault.message_malformed {e : LowerFault} (worded : e ≠ .hollow) : TellsMalformed e.message := by
  cases e with
  | structTwice n => exact .append (.append ⟨"struct ", rfl⟩ _) _
  | itemMissing id => exact .append (.append ⟨"item ", rfl⟩ _) _
  | itemKind k => exact .append ⟨"unknown item kind ", rfl⟩ _
  | typeKind k => exact .append ⟨"unknown type kind ", rfl⟩ _
  | notBlock id => exact .append (.append ⟨"statement ", rfl⟩ _) _
  | stmtMissing id => exact .append (.append ⟨"statement ", rfl⟩ _) _
  | stmtKind => exact ⟨"unknown statement kind unknown", rfl⟩
  | exprMissing id => exact .append (.append ⟨"expression ", rfl⟩ _) _
  | exprKind k => exact .append ⟨"unknown expression kind ", rfl⟩ _
  | literalKind k => exact .append ⟨"unknown literal kind ", rfl⟩ _
  | binaryOp k => exact .append ⟨"unknown binary operator ", rfl⟩ _
  | undeclaredStruct n => exact .append ⟨"struct literal of undeclared struct ", rfl⟩ _
  | literalOutside n => exact .append (.append ⟨"struct literal ", rfl⟩ _) _
  | noField s f => exact .append (.append (.append ⟨"struct ", rfl⟩ _) _) _
  | fieldTwice f s => exact .append (.append (.append (.append ⟨"field ", rfl⟩ _) _) _) _
  | fieldUnset f s => exact .append (.append (.append (.append ⟨"field ", rfl⟩ _) _) _) _
  | fileMissing id => exact .append (.append ⟨"file ", rfl⟩ _) _
  | hollow => exact absurd rfl worded

theorem forall₂_map_eq {α β γ : Type} {f : α → γ} {g : β → γ} : ∀ {xs : List α} {ys : List β},
    List.Forall₂ (fun x y => g y = f x) xs ys → xs.map f = ys.map g
  | _, _, .nil => rfl
  | _, _, .cons first rest => by rw [List.map_cons, List.map_cons, forall₂_map_eq rest, first]

namespace Builder
open Lower (Layouts)

/-! ## Builders -/

/-- The struct that a number stands for, by its name. -/
def structName? (b : Builder) (id : Nat) : Option String :=
  match b.items.find id with
  | .node _ (.struct d) => some (b.name d.name)
  | _ => none

/-- The declaration of an item: a function with its parameters and a body, or a struct with its fields. -/
def Declares (b : Builder) (ls : Layouts) (id : Nat) (d : C.Decl) : Prop :=
  match b.items.find id with
  | .node _ (.fn fn) => ∃ ps params ret inner, b.paramRange? fn.params = some ps ∧
      params.map (·.name) = ps.map (fun p => b.name p.name) ∧
      d = .fn (Lower.fnName (b.name fn.name)) params ret (some inner)
  | .node _ (.struct st) => ∃ fs members, b.paramRange? st.fields = some fs ∧
      members.map (·.name) = fs.map (fun p => b.name p.name) ∧ d = .struct (b.name st.name) members ∧
      ⟨b.name st.name, members⟩ ∈ ls
  | _ => False

/-- The unit has a declaration for every item of the file, and then a constructor for every struct. -/
def Complete (b : Builder) (file : Nat) (name : String) (u : C.CUnit) : Prop :=
  ∃ f decls ls, b.files.get? file = some f ∧ u.name = name ∧ u.isHeader = false ∧ u.includes = Lower.includes ∧
    u.decls = decls ++ ls.map Lower.constructor ∧ List.Forall₂ (b.Declares ls) f.items decls ∧
    ls.map (·.name) = f.items.filterMap b.structName?

/-- The fault says what is wrong with the tree, and a node that it misses is not there. -/
def Refuses (b : Builder) (file : Nat) (e : LowerFault) : Prop :=
  TellsMalformed e.message ∧
  match e with
  | .fileMissing id => id = file ∧ b.files.get? id = none
  | .itemMissing id => b.items.kind? id = none
  | .stmtMissing id => b.stmts.kind? id = none
  | .exprMissing id => b.exprs.kind? id = none
  | .hollow | .exprKind _ | .stmtKind | .itemKind _ => False
  | _ => True

variable {b : Builder}

theorem refuses_of_due {hs : List Hole} (only : b.OnlyMissing hs) {e : LowerFault} (due : Lower.Due hs e) (file : Nat) :
    b.Refuses file e := by
  have solid : ¬ ∃ h ∈ hs, h.IsHollow := by
    rintro ⟨h, member, isHollow⟩
    have missing := only h member
    cases h with
    | hollowExpr k | hollowStmt k | hollowItem k => exact missing
    | expr id | stmt id | item id => exact isHollow
  have worded : e ≠ .hollow := by
    rintro rfl
    exact solid due
  refine ⟨LowerFault.message_malformed worded, ?_⟩
  cases e with
  | exprMissing id => exact only (.expr id) due
  | stmtMissing id => exact only (.stmt id) due
  | itemMissing id => exact only (.item id) due
  | fileMissing id => exact due.elim
  | hollow | exprKind _ | stmtKind | itemKind _ => exact solid due
  | _ => trivial

theorem struct?_item (sound : b.Sound) (id : Nat) : (Check.struct? (b.item id)).map (·.name) = b.structName? id := by
  unfold structName?
  cases found : b.items.find id with
  | missing =>
    simp only [item, found]
    rfl
  | hollow s k => exact (sound.items.hollow found).elim
  | node s x =>
    cases x with
    | fn d =>
      obtain ⟨ps, _, read⟩ := item_fn sound found
      rw [read]
      rfl
    | struct d =>
      obtain ⟨fs, _, read⟩ := item_struct sound found
      rw [read]
      rfl

theorem param_names (b : Builder) (ps : List ParamNode) :
    (ps.map b.param).map (·.name) = ps.map (fun p => b.name p.name) := by
  rw [List.map_map]
  rfl

theorem declares_of_lowered (sound : b.Sound) {f : File} {ls : Layouts} (laid : Lower.layouts [] f.items = .ok ls)
    {id : Nat} (member : b.item id ∈ f.items) {d : C.Decl} (made : Lower.item ls (b.item id) = .ok d) :
    b.Declares ls id d := by
  unfold Declares
  cases found : b.items.find id with
  | missing =>
    simp only [item, found, Lower.item] at made
    cases made
  | hollow s k => exact (sound.items.hollow found).elim
  | node s x =>
    cases x with
    | fn fn =>
      obtain ⟨ps, range, read⟩ := item_fn sound found
      rw [read] at made
      obtain ⟨params, ret, inner, names, _, rfl⟩ := Lower.item_fn_ok made
      exact ⟨ps, params, ret, inner, range, names.trans (param_names b ps), rfl⟩
    | struct st =>
      obtain ⟨fs, range, read⟩ := item_struct sound found
      rw [read] at made member
      obtain ⟨members, membersOk, known⟩ := Lower.layouts_find laid member
      have names := Lower.params_names membersOk
      refine ⟨fs, members, range, names.trans (param_names b fs), ?_, List.mem_of_find?_eq_some known⟩
      cases made
      rw [known]
      rfl

/-- Lowering a file of a builder that was filled by the constructors, with whatever numbers, either gives a complete
    unit or says what is wrong with the tree. -/
theorem lowering_total (built : b.Built) (acyclic : b.Acyclic) (file : Nat) (name : String) :
    (∃ u, b.lower file name = .ok u ∧ b.Complete file name u) ∨
      ∃ e, b.lower file name = .error e ∧ b.Refuses file e := by
  have sound := built.sound
  cases read : b.file? file with
  | none =>
    refine .inr ⟨.fileMissing file, by rw [lower, read], LowerFault.message_malformed (by simp), rfl, ?_⟩
    exact Option.map_eq_none_iff.mp read
  | some f =>
    have same : b.lower file name = f.lower name := by rw [lower, read]
    rw [same]
    cases lowered : f.lower name with
    | error e =>
      refine .inr ⟨e, rfl, refuses_of_due (file_holes sound acyclic read) ?_ file⟩
      exact Lower.file_fails f name e lowered
    | ok u =>
      refine .inl ⟨u, rfl, ?_⟩
      obtain ⟨node, found, rfl⟩ := Option.map_eq_some_iff.mp read
      obtain ⟨ls, decls, unit⟩ := Lower.unit_cases lowered
      obtain ⟨named, header, includes⟩ := Lower.unit_head lowered
      have names : ls.map (·.name) = node.items.filterMap b.structName? := by
        have laid : List.Forall₂ (fun d l => l.name = d.name) ((node.items.map b.item).filterMap Check.struct?) ls :=
          unit.structs.imp fun _ _ laid => laid.name
        rw [← forall₂_map_eq laid, List.map_filterMap, List.filterMap_map]
        exact List.filterMap_congr fun id _ => struct?_item sound id
      refine ⟨node, decls, ls, found, named, header, includes, unit.decls, ?_, names⟩
      have each := (List.forall₂_and_left _ _).mpr ⟨fun id inside => List.mem_map_of_mem (f := b.item) inside,
        List.forall₂_map_left_iff.mp unit.items⟩
      exact each.imp fun id d ⟨member, made⟩ => declares_of_lowered sound unit.layouts member made

/-- A function with an empty body next to a struct, and in another file a function that returns an expression which is
    nowhere. -/
def lacking : Builder :=
  let b : Builder := { strings := ⟨["", "f", "x", "P"]⟩ }
  let b := (b.newStmt {} (.block [])).2
  let b := (b.newStmt {} (.ret 7)).2
  let b := (b.newStmt {} (.block [2])).2
  let b := (b.newStruct 3 {} [⟨2, ⟨3, 0, {}⟩, {}⟩] {}).2
  let b := (b.newFn 1 {} [] ⟨0, 0, {}⟩ 1 {}).2
  let b := (b.newFn 1 {} [] ⟨0, 0, {}⟩ 3 {}).2
  let b := (b.newFile {}).2
  let b := (b.newFile {}).2
  let b := (b.pushItem? 1 1).getD b
  let b := (b.pushItem? 1 2).getD b
  (b.pushItem? 2 3).getD b

theorem lowering_total_lacking :
    lacking.Built ∧ lacking.Acyclic ∧ (∃ u, lacking.lower 1 "app" = .ok u ∧ lacking.Complete 1 "app" u) ∧
      ∃ e, lacking.lower 2 "app" = .error e ∧ lacking.Refuses 2 e := by
  have nodes : Built _ := .file (.file (.fn (.fn (.struct (.stmt (.stmt (.stmt
    (.start ⟨["", "f", "x", "P"]⟩) {} (.block [])) {} (.ret 7)) {} (.block [2])) 3 {} [⟨2, ⟨3, 0, {}⟩, {}⟩] {})
    1 {} [] ⟨0, 0, {}⟩ 1 {}) 1 {} [] ⟨0, 0, {}⟩ 3 {}) {}) {}
  have pushed {b : Builder} (built : b.Built) (file item : Nat) : ((b.pushItem? file item).getD b).Built := by
    cases found : b.pushItem? file item with
    | none => exact built
    | some b' => exact built.push found
  have built : lacking.Built := pushed (pushed (pushed nodes 1 1) 1 2) 2 3
  have acyclic : lacking.Acyclic := by
    refine acyclic_of_earlier ?_ ?_
    · intro id c part
      have bounds := Finset.mem_Icc.mp (Pool.refs_bounds part)
      have none : lacking.exprs.heads.size = 0 := rfl
      omega
    · have each : ∀ id ∈ [1, 2, 3], ∀ c ∈ (lacking.stmts.find id).refs StmtData.parts, c < id := by decide
      intro id c part
      have bounds := Finset.mem_Icc.mp (Pool.refs_bounds part)
      have three : lacking.stmts.heads.size = 3 := rfl
      refine each id ?_ c part
      simp only [List.mem_cons, List.not_mem_nil]
      omega
  have lowers : (lacking.lower 1 "app").isOk = true := by decide
  have fails : (lacking.lower 2 "app").isOk = false := by decide
  refine ⟨built, acyclic, ?_, ?_⟩
  · rcases lowering_total built acyclic 1 "app" with complete | ⟨e, failed, _⟩
    · exact complete
    · rw [failed] at lowers
      cases lowers
  · rcases lowering_total built acyclic 2 "app" with ⟨u, made, _⟩ | refused
    · rw [made] at fails
      cases fails
    · exact refused

end Builder
end PineLang
