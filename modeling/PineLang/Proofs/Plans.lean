import PineLang.Proofs.ParserSteps
import PineLang.Syntax.Descent

/-!
The plans of the productions are what the parser does (`Production.read_plan`), and they make progress: every token that
a plan takes is one it has looked at and that is neither the end of file nor an error, and where it enters a production
before it has taken a token, that production has a lower rank (`Production.plan_paced`).
-/
namespace PineLang

/-! ## Reading by a plan -/

namespace Parser

/-- A production at a bound on the depth. -/
@[simp]
def production (n : Nat) : (p : Production) → p.Input → Parser p.Output
  | .items, cancelled => items cancelled n
  | .params, _ => params n
  | .fieldLines, _ => fieldLines n
  | .bracedFields, _ => bracedFields n
  | .body, _ => body n
  | .bodyStmts, _ => bodyStmts n
  | .stmt, _ => stmt n
  | .conditional, _ => conditional n
  | .expr, least => expr n least
  | .exprTail, (least, left) => exprTail n least left
  | .unary, _ => unary n
  | .postfixes, target => postfixes n target
  | .arguments, _ => arguments n
  | .fieldInits, _ => fieldInits n
  | .primary, _ => primary n

theorem production_zero (p : Production) (x : p.Input) : production 0 p x = fail .exhausted := by
  cases p <;> rfl

theorem bind_assoc {α β γ : Type} (p : Parser α) (f : α → Parser β) (g : β → Parser γ) :
    (p >>= f) >>= g = p >>= fun a => f a >>= g := by
  funext ls
  simp only [bind]
  cases p ls <;> rfl

@[simp] theorem pure_bind {α β : Type} (a : α) (f : α → Parser β) : (pure a : Parser α) >>= f = f a := rfl

theorem bind_congr {α β : Type} (p : Parser α) {f g : α → Parser β} (same : ∀ a, f a = g a) : p >>= f = p >>= g :=
  congrArg (p >>= ·) (funext same)

@[simp] theorem bind_pure {α : Type} (p : Parser α) : (p >>= fun a => pure a) = p := by
  funext ls
  simp only [bind]
  cases p ls <;> rfl

end Parser

namespace Plan

/-- Reads a list of lexemes by a plan, where the productions it enters are given. -/
def read {α : Type} (run : (p : Production) → p.Input → Parser p.Output) : Plan α → Parser α
  | done a => pure a
  | look next => fun ls => (next (ls.head?.getD (.token ⟨.eof, {}, "", .none⟩))).read run ls
  | take next => Parser.advance >>= fun t => (next t).read run
  | enter p x next => run p x >>= fun a => (next a).read run
  | stop fault => Parser.fail fault

section Reading

variable {α β : Type} (run : (p : Production) → p.Input → Parser p.Output)

@[simp] theorem read_pure (a : α) : (pure a : Plan α).read run = pure a := rfl

@[simp] theorem read_stop (f : SyntaxFault) : (stop f : Plan α).read run = Parser.fail f := rfl

@[simp] theorem read_done (a : α) : (done a).read run = pure a := rfl

@[simp] theorem read_enter (p : Production) (x : p.Input) (next : p.Output → Plan α) :
    (enter p x next).read run = run p x >>= fun a => (next a).read run := rfl

@[simp] theorem read_bind (plan : Plan α) (f : α → Plan β) :
    (plan >>= f).read run = plan.read run >>= fun a => (f a).read run := by
  show (plan.bind f).read run = _
  induction plan with
  | done a => rfl
  | look next ih =>
    funext ls
    exact congrFun (ih _) ls
  | take next ih =>
    simp only [bind, read, ih, Parser.bind_assoc]
  | enter p x next ih =>
    simp only [bind, read, ih, Parser.bind_assoc]
  | stop fault => rfl

@[simp] theorem read_ite {c : Prop} [Decidable c] (yes no : Plan α) :
    (if c then yes else no).read run = if c then yes.read run else no.read run := by
  split <;> rfl

@[simp] theorem read_current : current.read run = Parser.current := by
  funext ls
  cases ls <;> rfl

@[simp] theorem read_kind : kind.read run = Parser.kind := by
  funext ls
  cases ls <;> rfl

@[simp] theorem read_isAt (k : Kind) : (isAt k).read run = Parser.isAt k := by
  funext ls
  cases ls <;> rfl

@[simp] theorem read_advance : advance.read run = Parser.advance := by
  funext ls
  cases ls <;> rfl

@[simp] theorem read_unexpected (words : List String) : (unexpected words : Plan α).read run = Parser.unexpected words := by
  funext ls
  cases ls with
  | nil => rfl
  | cons l ls =>
    cases l with
    | error e earlier => rfl
    | token t =>
      show read run (if t.kind == .eof then _ else _) _ = if t.kind == .eof then _ else _
      split <;> rfl

@[simp] theorem read_expect (k : Kind) : (expect k).read run = Parser.expect k := by
  simp [expect, Parser.expect]

@[simp] theorem read_name : name.read run = Parser.name := by
  simp [name, Parser.name]

@[simp] theorem read_type : type.read run = Parser.type := by
  funext ls
  cases ls with
  | nil => rfl
  | cons l ls =>
    cases l with
    | error e earlier => rfl
    | token t =>
      obtain ⟨kind, span, text, payload⟩ := t
      cases kind <;> rfl

@[simp] theorem read_field : field.read run = Parser.field := by
  simp [field, Parser.field]

@[simp] theorem read_join (op : Joiner) (left right : Expr) : (join op left right).read run = Parser.join op left right := by
  cases op with
  | op o => rfl
  | assign => simp [join, Parser.join]

@[simp] theorem read_endOfStmt (closed : Bool) : (endOfStmt closed).read run = Parser.endOfStmt closed := by
  simp only [endOfStmt, Parser.endOfStmt, read_ite, read_pure, read_bind, read_kind]
  congr 2
  funext k
  split <;> simp

@[simp] theorem read_endOfItem (closed : Bool) : (endOfItem closed).read run = Parser.endOfItem closed := by
  simp only [endOfItem, Parser.endOfItem, read_ite, read_pure, read_bind, read_kind]
  congr 2
  funext k
  split <;> simp

end Reading

/-! ## Productions -/

open PineLang.Parser (production bind_congr bind_pure)

variable {n : Nat}

theorem read_expr (least : Nat) : (expr least).read (production n) = Parser.expr (n + 1) least := by
  simp [expr, Parser.expr]

theorem read_exprTail (least : Nat) (left : Expr) :
    (exprTail least left).read (production n) = Parser.exprTail (n + 1) least left := by
  simp only [exprTail, Parser.exprTail, read_bind, read_kind]
  congr 1
  funext k
  cases k.joiner? with
  | none => rfl
  | some op => simp

theorem read_unary : unary.read (production n) = Parser.unary (n + 1) := by
  simp only [unary, Parser.unary, read_bind, read_kind]
  refine bind_congr _ fun k => ?_
  cases k.unary? <;> simp

theorem read_postfixes (target : Expr) : (postfixes target).read (production n) = Parser.postfixes (n + 1) target := by
  simp only [postfixes, Parser.postfixes, read_bind, read_kind]
  refine bind_congr _ fun k => ?_
  split <;> simp

theorem read_arguments : arguments.read (production n) = Parser.arguments (n + 1) := by
  simp [arguments, Parser.arguments]

theorem read_fieldInits : fieldInits.read (production n) = Parser.fieldInits (n + 1) := by
  simp [fieldInits, Parser.fieldInits]

theorem read_primary : primary.read (production n) = Parser.primary (n + 1) := by
  simp only [primary, Parser.primary, read_bind, read_current]
  refine bind_congr _ fun t => ?_
  generalize t.kind = k
  split <;> simp

theorem read_body : body.read (production n) = Parser.body (n + 1) := by
  simp [body, Parser.body]

theorem read_bodyStmts : bodyStmts.read (production n) = Parser.bodyStmts (n + 1) := by
  simp [bodyStmts, Parser.bodyStmts]

theorem read_stmt : stmt.read (production n) = Parser.stmt (n + 1) := by
  simp only [stmt, Parser.stmt, read_bind, read_current]
  refine bind_congr _ fun t => ?_
  generalize t.kind = k
  split <;> simp

theorem read_conditional : conditional.read (production n) = Parser.conditional (n + 1) := by
  simp only [conditional, Parser.conditional, call, read_bind, read_enter, read_done, read_advance, read_expect, read_isAt,
    read_ite, read_kind, bind_pure, production]
  refine bind_congr _ fun t => bind_congr _ fun test => bind_congr _ fun _ => bind_congr _ fun yes => bind_congr _ fun other => ?_
  split
  · refine bind_congr _ fun _ => bind_congr _ fun k => ?_
    split <;> simp
  · rfl

theorem read_params : params.read (production n) = Parser.params (n + 1) := by
  simp [params, Parser.params]

theorem read_fieldLines : fieldLines.read (production n) = Parser.fieldLines (n + 1) := by
  simp [fieldLines, Parser.fieldLines]

theorem read_bracedFields : bracedFields.read (production n) = Parser.bracedFields (n + 1) := by
  simp [bracedFields, Parser.bracedFields]

theorem read_fnItem : fnItem.read (production n) = Parser.fnItem n := by
  simp [fnItem, Parser.fnItem, signature]

theorem read_structItem : structItem.read (production n) = Parser.structItem n := by
  simp only [structItem, Parser.structItem, read_bind, read_advance, read_name, read_kind]
  refine bind_congr _ fun t => bind_congr _ fun s => bind_congr _ fun k => ?_
  split <;> simp

theorem read_item : item.read (production n) = Parser.item n := by
  simp only [item, Parser.item, read_bind, read_kind]
  refine bind_congr _ fun k => ?_
  split <;> simp [read_fnItem, read_structItem]

theorem read_items (cancelled : Bool) : (items cancelled).read (production n) = Parser.items cancelled (n + 1) := by
  simp only [items, Parser.items, read_bind, read_kind]
  refine bind_congr _ fun k => ?_
  split <;> simp [read_item]

end Plan

/-- A production does what its plan says. -/
theorem Production.read_plan (n : Nat) (p : Production) (x : p.Input) :
    (p.plan x).read (Parser.production n) = Parser.production (n + 1) p x := by
  cases p with
  | items => exact Plan.read_items x
  | params => exact Plan.read_params
  | fieldLines => exact Plan.read_fieldLines
  | bracedFields => exact Plan.read_bracedFields
  | body => exact Plan.read_body
  | bodyStmts => exact Plan.read_bodyStmts
  | stmt => exact Plan.read_stmt
  | conditional => exact Plan.read_conditional
  | expr => exact Plan.read_expr x
  | exprTail => exact Plan.read_exprTail x.1 x.2
  | unary => exact Plan.read_unary
  | postfixes => exact Plan.read_postfixes x
  | arguments => exact Plan.read_arguments
  | fieldInits => exact Plan.read_fieldInits
  | primary => exact Plan.read_primary

/-! ## Progress -/

namespace Production

/-- Productions that are entered inside others without a token in between go down in rank. -/
@[simp]
def rank : Production → Nat
  | items => 6
  | body | bodyStmts => 5
  | stmt | arguments => 4
  | expr => 3
  | unary => 2
  | exprTail | postfixes | fieldInits | primary | conditional | params | fieldLines | bracedFields => 1

/-- The production takes a token before it is left. -/
@[simp]
def takes : Production → Bool
  | params | fieldLines | body | bodyStmts | stmt | conditional | expr | unary | primary => true
  | items | bracedFields | exprTail | postfixes | arguments | fieldInits => false

end Production

namespace Plan

/-- What is known at a point of a plan: the kind of the current lexeme, if the plan has looked at it, and whether a
    token was taken since the production was entered. -/
structure Known where
  kind : Option Kind
  moved : Bool

/-- What is known when a production is entered. An `if` is looked at before. -/
@[simp]
def Known.atEntry (p : Production) : Known := ⟨if p = .conditional then some .kwIf else none, false⟩

/-- A plan of a production of this rank makes progress, and where it is done, `post` holds of the value and of what is
    known then. -/
def Paced {α : Type} (rank : Nat) : Known → Plan α → (α → Known → Prop) → Prop
  | known, done a, post => post a known
  | known, look next, post => ∀ l, Paced rank ⟨some l.kind, known.moved⟩ (next l) post
  | known, take next, post =>
    (∃ k, known.kind = some k ∧ k ≠ .eof ∧ k ≠ .invalid) ∧ ∀ t, Paced rank ⟨none, true⟩ (next t) post
  | known, enter p _ next, post =>
    (known.moved = true ∨ p.rank < rank) ∧ (p = .conditional → known.kind = some .kwIf) ∧
      ∀ a, Paced rank ⟨none, known.moved || p.takes⟩ (next a) post
  | _, stop _, _ => True

namespace Paced

variable {α β : Type} {rank : Nat} {known : Known} {moved : Bool}

theorem mono {plan : Plan α} {post weaker : α → Known → Prop} (imp : ∀ a k, post a k → weaker a k) :
    ∀ {known : Known}, Paced rank known plan post → Paced rank known plan weaker := by
  induction plan with
  | done a => exact fun {known} paced => imp a known paced
  | look next ih => exact fun paced l => ih l (paced l)
  | take next ih => exact fun ⟨inside, paced⟩ => ⟨inside, fun t => ih t (paced t)⟩
  | enter p x next ih => exact fun ⟨less, atIf, paced⟩ => ⟨less, atIf, fun a => ih a (paced a)⟩
  | stop fault => exact fun _ => trivial

@[simp] theorem pure_iff (a : α) {post : α → Known → Prop} : Paced rank known (pure a) post ↔ post a known := Iff.rfl

@[simp] theorem bind_iff (plan : Plan α) (f : α → Plan β) {post : β → Known → Prop} :
    Paced rank known (plan >>= f) post ↔ Paced rank known plan fun a k => Paced rank k (f a) post := by
  show Paced rank known (plan.bind f) post ↔ _
  induction plan generalizing known with
  | done a => rfl
  | look next ih => exact forall_congr' fun l => ih l
  | take next ih => exact and_congr_right fun _ => forall_congr' fun t => ih t
  | enter p x next ih => exact and_congr_right fun _ => and_congr_right fun _ => forall_congr' fun a => ih a
  | stop fault => rfl

@[simp] theorem done_iff (a : α) {post : α → Known → Prop} : Paced rank known (done a) post ↔ post a known := Iff.rfl

@[simp] theorem enter_iff (p : Production) (x : p.Input) (next : p.Output → Plan α) {post : α → Known → Prop} :
    Paced rank known (enter p x next) post ↔ (known.moved = true ∨ p.rank < rank) ∧
      (p = .conditional → known.kind = some .kwIf) ∧ ∀ a, Paced rank ⟨none, known.moved || p.takes⟩ (next a) post := Iff.rfl

@[simp] theorem stop_iff (f : SyntaxFault) {post : α → Known → Prop} : Paced rank known (stop f) post ↔ True := Iff.rfl

@[simp] theorem ite_iff {c : Prop} [Decidable c] (yes no : Plan α) {post : α → Known → Prop} :
    Paced rank known (if c then yes else no) post ↔ (c → Paced rank known yes post) ∧ (¬ c → Paced rank known no post) := by
  split <;> simp_all

@[simp] theorem lexeme_iff {post : Lexeme → Known → Prop} :
    Paced rank known lexeme post ↔ ∀ l, post l ⟨some l.kind, known.moved⟩ := Iff.rfl

@[simp] theorem current_iff {post : Token → Known → Prop} :
    Paced rank known current post ↔ ∀ t, post t ⟨some t.kind, known.moved⟩ :=
  ⟨fun paced t => paced (.token t), fun paced l => paced l.toToken⟩

@[simp] theorem kind_iff {post : Kind → Known → Prop} :
    Paced rank known kind post ↔ ∀ k, post k ⟨some k, known.moved⟩ :=
  ⟨fun paced k => paced (.token ⟨k, {}, "", .none⟩), fun paced l => paced l.kind⟩

@[simp] theorem isAt_iff (k : Kind) {post : Bool → Known → Prop} :
    Paced rank known (isAt k) post ↔ ∀ here, post (here == k) ⟨some here, known.moved⟩ := by
  simp [isAt]

@[simp] theorem advance_iff {post : Token → Known → Prop} :
    Paced rank known advance post ↔
      (∃ k, known.kind = some k ∧ k ≠ .eof ∧ k ≠ .invalid) ∧ ∀ t, post t ⟨none, true⟩ := Iff.rfl

@[simp] theorem unexpected_iff (words : List String) {post : α → Known → Prop} :
    Paced rank known (unexpected words : Plan α) post ↔ True := by
  simp only [iff_true]
  intro l
  cases l with
  | error e earlier => trivial
  | token t =>
    show Paced rank _ (if t.kind == .eof then _ else _) post
    split <;> trivial

/-! The readers of single tokens have taken one when they are done. -/

@[simp] theorem expect_iff {k : Kind} (inside : k ≠ .eof ∧ k ≠ .invalid) {post : Token → Known → Prop} :
    Paced rank known (expect k) post ↔ ∀ t, post t ⟨none, true⟩ := by
  simp [expect, inside]

@[simp] theorem name {post : String × Span → Known → Prop} (after : ∀ x, post x ⟨none, true⟩) :
    Paced rank known name post := by
  simp [Plan.name, after]

@[simp] theorem noType (t : Token) {post : α → Known → Prop} : Paced rank known (noType t : Plan α) post := by
  intro l
  cases l <;> trivial

@[simp] theorem type {post : TypeRef → Known → Prop} (after : ∀ ty, post ty ⟨none, true⟩) :
    Paced rank known type post := by
  simp only [Plan.type, bind_iff, current_iff]
  intro t
  cases t.kind <;> simp [after, Kind.primitive?]

@[simp] theorem field {post : Param → Known → Prop} (after : ∀ p, post p ⟨none, true⟩) : Paced rank known field post := by
  simp [Plan.field, after]

@[simp] theorem join {op : Joiner} {left right : Expr} {post : Expr → Known → Prop} (after : ∀ e, post e known) :
    Paced rank known (join op left right) post := by
  cases op with
  | op o => exact after _
  | assign => simp [Plan.join, after]

/-! The end of a line is a token or nothing; either way no more is taken back. -/

@[simp] theorem endOfStmt {closed : Bool} {here : Option Kind} {post : Unit → Known → Prop}
    (after : ∀ here, post () ⟨here, true⟩) : Paced rank ⟨here, true⟩ (endOfStmt closed) post := by
  cases closed with
  | true => exact after here
  | false =>
    simp only [Plan.endOfStmt, Bool.false_eq_true, if_false, bind_iff, kind_iff]
    intro k
    split <;> simp [after]

@[simp] theorem endOfItem {closed : Bool} {here : Option Kind} {post : Unit → Known → Prop}
    (after : ∀ here, post () ⟨here, true⟩) : Paced rank ⟨here, true⟩ (endOfItem closed) post := by
  cases closed with
  | true => exact after here
  | false =>
    simp only [Plan.endOfItem, Bool.false_eq_true, if_false, bind_iff, kind_iff]
    intro k
    split <;> simp [after]

end Paced

/-! ## Productions -/

/-- The plan of a production makes progress, and it has taken a token when it is done, if the production says so. -/
@[grind =] def OwnPace (p : Production) (plan : Plan p.Output) : Prop :=
  Paced p.rank (.atEntry p) plan fun _ known => p.takes = true → known.moved = true

theorem expr_paced (least : Nat) : OwnPace .expr (expr least) := by
  simp [OwnPace, expr]

theorem inside_of_joiner {k : Kind} {op : Joiner} (found : k.joiner? = some op) : k ≠ .eof ∧ k ≠ .invalid := by
  constructor <;> rintro rfl <;> cases found

theorem inside_of_unary {k : Kind} {op : UnaryOp} (found : k.unary? = some op) : k ≠ .eof ∧ k ≠ .invalid := by
  constructor <;> rintro rfl <;> cases found

theorem exprTail_paced (least : Nat) (left : Expr) : OwnPace .exprTail (exprTail least left) := by
  simp only [OwnPace, exprTail, Paced.bind_iff, Paced.kind_iff]
  intro k
  split
  · simp
  · next op found => simp [inside_of_joiner found]

theorem unary_paced : OwnPace .unary unary := by
  simp only [OwnPace, unary, Paced.bind_iff, Paced.kind_iff]
  intro k
  split
  · next op found => simp [inside_of_unary found]
  · simp

theorem postfixes_paced (target : Expr) : OwnPace .postfixes (postfixes target) := by
  simp only [OwnPace, postfixes, Paced.bind_iff, Paced.kind_iff]
  intro k
  split <;> simp

theorem arguments_paced : OwnPace .arguments arguments := by
  simp [OwnPace, arguments]

theorem fieldInits_paced : OwnPace .fieldInits fieldInits := by
  simp [OwnPace, fieldInits]

theorem primary_paced : OwnPace .primary primary := by
  simp only [OwnPace, primary, Paced.bind_iff, Paced.current_iff]
  intro t
  split <;> simp [*]

theorem body_paced : OwnPace .body body := by
  simp [OwnPace, body]

theorem bodyStmts_paced : OwnPace .bodyStmts bodyStmts := by
  simp [OwnPace, bodyStmts]

theorem stmt_paced : OwnPace .stmt stmt := by
  simp only [OwnPace, stmt, Paced.bind_iff, Paced.current_iff]
  intro t
  split <;> simp [*]

theorem conditional_paced : OwnPace .conditional conditional := by
  simp only [OwnPace, Known.atEntry, if_true, conditional, call, Production.takes, Paced.bind_iff, Paced.advance_iff,
    Paced.enter_iff, Paced.done_iff, Paced.isAt_iff, Paced.ite_iff, Paced.kind_iff]
  refine ⟨⟨_, rfl, by decide⟩, fun t => ⟨.inl trivial, by simp, fun test => ?_⟩⟩
  rw [Paced.expect_iff (by decide)]
  refine fun _ => ⟨.inl rfl, by simp, fun yes here => ⟨fun atElse => ⟨⟨here, rfl, ?_⟩, fun _ k => ?_⟩, fun _ _ => rfl⟩⟩
  · rw [eq_of_beq atElse]
    decide
  · split <;> simp

theorem params_paced : OwnPace .params params := by
  simp [OwnPace, params]

theorem fieldLines_paced : OwnPace .fieldLines fieldLines := by
  simp [OwnPace, fieldLines]

theorem bracedFields_paced : OwnPace .bracedFields bracedFields := by
  simp [OwnPace, bracedFields]

section Items

variable {rank : Nat} {post : Item × Bool → Known → Prop} (after : ∀ i here, post i ⟨here, true⟩)
include after

theorem signature_paced (start : Span) (f : String × Span) (ps : List Param) (here : Option Kind) :
    Paced rank ⟨here, true⟩ (signature start f ps) post := by
  simp [signature, after]

theorem fnItem_paced (moved : Bool) : Paced rank ⟨some .kwFun, moved⟩ fnItem post := by
  simp [fnItem, signature_paced after]

theorem structItem_paced (moved : Bool) : Paced rank ⟨some .kwType, moved⟩ structItem post := by
  simp only [structItem, Paced.bind_iff, Paced.advance_iff]
  refine ⟨⟨_, rfl, by decide⟩, fun t => Paced.name fun s => ?_⟩
  rw [Paced.kind_iff]
  intro k
  split <;> simp [after]

theorem item_paced (known : Known) : Paced rank known item post := by
  simp only [item, Paced.bind_iff, Paced.kind_iff]
  intro k
  split <;> simp [fnItem_paced after, structItem_paced after]

end Items

theorem items_paced (cancelled : Bool) : OwnPace .items (items cancelled) := by
  simp only [OwnPace, items, Paced.bind_iff, Paced.kind_iff]
  intro k
  split <;> simp [item_paced]

end Plan

/-- Every plan of a production makes progress. -/
theorem Production.plan_paced (p : Production) (x : p.Input) : Plan.OwnPace p (p.plan x) := by
  cases p with
  | items => exact Plan.items_paced x
  | params => exact Plan.params_paced
  | fieldLines => exact Plan.fieldLines_paced
  | bracedFields => exact Plan.bracedFields_paced
  | body => exact Plan.body_paced
  | bodyStmts => exact Plan.bodyStmts_paced
  | stmt => exact Plan.stmt_paced
  | conditional => exact Plan.conditional_paced
  | expr => exact Plan.expr_paced x
  | exprTail => exact Plan.exprTail_paced x.1 x.2
  | unary => exact Plan.unary_paced
  | postfixes => exact Plan.postfixes_paced x
  | arguments => exact Plan.arguments_paced
  | fieldInits => exact Plan.fieldInits_paced
  | primary => exact Plan.primary_paced

end PineLang
