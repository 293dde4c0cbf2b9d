import PineLang.Proofs.ParserSound

/-!
How a parse ends, whatever the lexemes are. Every production takes lexemes that are tokens and no others; where it
stops, the fault is one that the source has, and an error among the lexemes is the fault of the parse that stops at
it (`parse_error`). The bound on the depth is never the fault: between two tokens fewer than sixteen productions
nest, so sixteen times the lexemes that are left is enough.
-/
namespace PineLang
open Grammar

/-- The source has the fault: neither the bound on the depth nor an order to stop is to blame, and an error of the
    lexer is that of the lexeme at which the parse stopped. -/
def SyntaxError.Caused (e : SyntaxError) : Prop :=
  match e.fault with
  | .lexical f => ∃ earlier rest, e.rest = .error f earlier :: rest
  | .cancelled | .exhausted => False
  | _ => True

namespace Parser

/-- A run that takes tokens only, at least so many of them if it succeeds, and stops with a fault of the source. -/
def Honest {α : Type} (least : Nat) (p : Parser α) (ls : List Lexeme) : Prop :=
  match p ls with
  | .ok (_, rest) => ∃ ts, ls = ts ++ rest ∧ Proper ts ∧ least ≤ ts.length
  | .error e => e.Caused ∧ ∃ ts, ls = ts ++ e.rest ∧ Proper ts

namespace Honest

variable {α β : Type} {m n : Nat} {p : Parser α} {f : α → Parser β} {ls rest : List Lexeme}

theorem error {e : SyntaxError} (honest : Honest n p ls) (run : p ls = .error e) :
    e.Caused ∧ ∃ ts, ls = ts ++ e.rest ∧ Proper ts := by
  simpa only [Honest, run] using honest

theorem mono (honest : Honest n p ls) (less : m ≤ n) : Honest m p ls := by
  unfold Honest at honest ⊢
  split at honest
  · obtain ⟨ts, taken, proper, least⟩ := honest
    exact ⟨ts, taken, proper, Nat.le_trans less least⟩
  · exact honest

/-- Runs one after the other; the second starts with fewer lexemes by what the first has taken. -/
theorem bind (first : Honest m p ls)
    (next : ∀ a rest, p ls = .ok (a, rest) → rest.length + m ≤ ls.length → Honest n (f a) rest) :
    Honest (m + n) (p >>= f) ls := by
  unfold Honest at first
  split at first
  · next a rest run =>
    obtain ⟨ts, rfl, proper, least⟩ := first
    have second := next a rest run (by rw [List.length_append]; omega)
    unfold Honest at second ⊢
    rw [bind_of_ok run]
    split at second
    · next rest' _ =>
      obtain ⟨us, rfl, proper', least'⟩ := second
      exact ⟨ts ++ us, by rw [List.append_assoc], proper_append.mpr ⟨proper, proper'⟩, by rw [List.length_append]; omega⟩
    · obtain ⟨caused, us, rest', proper'⟩ := second
      exact ⟨caused, ts ++ us, by rw [rest', List.append_assoc], proper_append.mpr ⟨proper, proper'⟩⟩
  · next e run =>
    have stopped : (p >>= f) ls = .error e := by simp only [Bind.bind, run]
    unfold Honest
    rw [stopped]
    exact first

theorem pure (a : α) : Honest 0 (pure a) ls := ⟨[], rfl, proper_nil, Nat.le_refl 0⟩

/-- A run that looks ahead goes on like its continuation. -/
theorem kind {f : Kind → Parser β} (honest : Honest n (f (look ls)) ls) : Honest n (Parser.kind >>= f) ls := by
  unfold Honest at honest ⊢
  rwa [kind_bind]

theorem isAt {k : Kind} {f : Bool → Parser β} (here : look ls = k → Honest n (f true) ls)
    (other : look ls ≠ k → Honest n (f false) ls) : Honest n (Parser.isAt k >>= f) ls := by
  by_cases atKind : look ls = k
  · have honest := here atKind
    unfold Honest at honest ⊢
    rwa [at_bind atKind]
  · have honest := other atKind
    unfold Honest at honest ⊢
    rwa [notAt_bind atKind]

theorem current {f : Token → Parser β} (honest : ∀ t, t.kind = look ls → Honest n (f t) ls) :
    Honest n (Parser.current >>= f) ls := by
  cases ls with
  | nil => exact honest ⟨.eof, {}, "", .none⟩ rfl
  | cons l ls => exact honest l.toToken rfl

/-- The current lexeme can be taken where its kind is known. -/
theorem advance {f : Token → Parser β} (inside : look ls ≠ .eof ∧ look ls ≠ .invalid)
    (next : ∀ t rest, rest.length + 1 = ls.length → Honest n (f t) rest) :
    Honest (1 + n) (Parser.advance >>= f) ls := by
  obtain ⟨l, tail, rfl, isKind⟩ := cons_of_look rfl inside.1
  have proper : Proper [l] := by simpa using inside
  refine bind (m := 1) ⟨[l], rfl, proper, Nat.le_refl 1⟩ fun t rest run _ => ?_
  cases run
  exact next _ _ rfl

theorem unexpected (words : List String) : Honest n (Parser.unexpected (α := α) words) ls := by
  unfold Honest Parser.unexpected
  split
  · next run =>
    split at run
    · cases run
    · split at run <;> cases run
    · cases run
  · next e run =>
    refine ⟨?_, [], ?_, proper_nil⟩
    · split at run
      · cases run
        exact ⟨_, _, rfl⟩
      · split at run <;> (cases run; trivial)
      · cases run
        trivial
    · split at run
      · cases run
        rfl
      · split at run <;> (cases run; rfl)
      · cases run
        rfl

theorem expect {k : Kind} (inside : k ≠ .eof ∧ k ≠ .invalid) : Honest 1 (Parser.expect k) ls := by
  refine isAt (fun here => ?_) fun _ => unexpected _
  rw [← here] at inside
  exact advance (f := Pure.pure) inside fun t rest _ => pure t

theorem name : Honest 1 Parser.name ls := by
  refine isAt (fun here => ?_) fun _ => unexpected _
  exact advance (by rw [here]; decide) fun t rest _ => pure _

/-- The fault of a lexeme that names no type. -/
theorem noType (t : Token) : Honest n (fun ls => match ls with
    | .error e _ :: _ => .error ⟨.lexical e, ls⟩
    | _ => .error ⟨.expectedType t, ls⟩ : Parser TypeRef) ls := by
  unfold Honest
  cases ls with
  | nil => exact ⟨trivial, [], rfl, proper_nil⟩
  | cons l tail =>
    cases l with
    | token t => exact ⟨trivial, [], rfl, proper_nil⟩
    | error e earlier => exact ⟨⟨_, _, rfl⟩, [], rfl, proper_nil⟩

theorem type : Honest 1 Parser.type ls := by
  refine current fun t isKind => ?_
  generalize t.kind = k at isKind
  cases named : k.primitive? with
  | some ty =>
    refine advance ?_ fun t rest _ => pure _
    rw [← isKind]
    constructor <;> (rintro rfl; cases named)
  | none =>
    cases k
    case underscore | ident => exact advance (by rw [← isKind]; decide) fun t rest _ => pure _
    case eof => exact unexpected _
    all_goals exact noType t

theorem field : Honest 1 Parser.field ls := by
  refine (bind name fun x rest _ _ => ?_ : Honest (1 + 0) _ _)
  refine (bind (expect (by decide)) fun t rest _ _ => ?_ : Honest (1 + 1) _ _).mono (Nat.zero_le _)
  exact bind type fun ty rest _ _ => pure _

theorem endOfStmt (closed : Bool) : Honest 0 (Parser.endOfStmt closed) ls := by
  unfold Parser.endOfStmt
  split
  · exact pure _
  · refine kind ?_
    generalize here : look ls = k
    split
    · exact (advance (by rw [here]; decide) fun t rest _ => pure _).mono (Nat.zero_le _)
    · exact pure _
    · exact unexpected _

theorem endOfItem (closed : Bool) : Honest 0 (Parser.endOfItem closed) ls := by
  unfold Parser.endOfItem
  split
  · exact pure _
  · refine kind ?_
    generalize here : look ls = k
    split
    · exact (advance (by rw [here]; decide) fun t rest _ => pure _).mono (Nat.zero_le _)
    · exact pure _
    · exact pure _
    · exact unexpected _

theorem join (op : Joiner) (left right : Expr) : Honest 0 (Parser.join op left right) ls := by
  unfold Parser.join
  cases op with
  | op o => exact pure _
  | assign =>
    simp only
    split
    · exact pure _
    · exact ⟨trivial, [], rfl, proper_nil⟩

end Honest

/-! ## Productions -/

variable {n : Nat}

/-- The productions of expressions, at a bound that the lexemes do not reach. -/
structure ExprHonest (n : Nat) : Prop where
  expr : ∀ {least : Nat} {ls : List Lexeme}, 16 * ls.length + 3 ≤ n → Honest 1 (expr n least) ls
  tail : ∀ {least : Nat} {left : Expr} {ls : List Lexeme}, 16 * ls.length + 1 ≤ n → Honest 0 (exprTail n least left) ls
  unary : ∀ {ls : List Lexeme}, 16 * ls.length + 2 ≤ n → Honest 1 (unary n) ls
  postfixes : ∀ {target : Expr} {ls : List Lexeme}, 16 * ls.length + 1 ≤ n → Honest 0 (postfixes n target) ls
  arguments : ∀ {ls : List Lexeme}, 16 * ls.length + 4 ≤ n → Honest 0 (arguments n) ls
  inits : ∀ {ls : List Lexeme}, 16 * ls.length + 1 ≤ n → Honest 0 (fieldInits n) ls
  primary : ∀ {ls : List Lexeme}, 16 * ls.length + 1 ≤ n → Honest 1 (primary n) ls

namespace ExprHonest

private theorem expr_succ (ih : ExprHonest n) {least : Nat} {ls : List Lexeme} (room : 16 * ls.length + 3 ≤ n + 1) :
    Honest 1 (Parser.expr (n + 1) least) ls := by
  rw [Parser.expr]
  exact (ih.unary (by omega)).bind fun left rest _ _ => ih.tail (by omega)

private theorem tail_succ (ih : ExprHonest n) {least : Nat} {left : Expr} {ls : List Lexeme}
    (room : 16 * ls.length + 1 ≤ n + 1) : Honest 0 (exprTail (n + 1) least left) ls := by
  rw [exprTail]
  refine .kind ?_
  split
  · exact .pure _
  · next op isOp =>
    split
    · exact .pure _
    · have inside : look ls ≠ .eof ∧ look ls ≠ .invalid := by
        constructor <;> (intro kind; rw [kind] at isOp; cases isOp)
      refine (Honest.advance (n := 1) inside fun t rest _ => ?_).mono (Nat.zero_le _)
      refine (ih.expr (by omega)).bind (n := 0) fun right rest _ _ => ?_
      exact (Honest.join op left right).bind (n := 0) fun joined rest _ _ => ih.tail (by omega)

private theorem unary_succ (ih : ExprHonest n) {ls : List Lexeme} (room : 16 * ls.length + 2 ≤ n + 1) :
    Honest 1 (Parser.unary (n + 1)) ls := by
  rw [Parser.unary]
  refine .kind ?_
  split
  · next op isOp =>
    have inside : look ls ≠ .eof ∧ look ls ≠ .invalid := by
      constructor <;> (intro kind; rw [kind] at isOp; cases isOp)
    refine (Honest.advance (n := 1) inside fun t rest _ => ?_).mono (Nat.le_succ 1)
    exact (ih.unary (by omega)).bind (n := 0) fun operand rest _ _ => .pure _
  · exact (ih.primary (by omega)).bind fun head rest _ _ => ih.postfixes (by omega)

private theorem postfixes_succ (ih : ExprHonest n) {target : Expr} {ls : List Lexeme}
    (room : 16 * ls.length + 1 ≤ n + 1) : Honest 0 (Parser.postfixes (n + 1) target) ls := by
  rw [Parser.postfixes]
  refine .kind ?_
  generalize here : look ls = k
  split
  · refine (Honest.advance (n := 0) (by rw [here]; decide) fun t rest _ => ?_).mono (Nat.zero_le _)
    refine (ih.arguments (by omega)).bind (n := 0) fun args rest _ _ => ?_
    refine ((Honest.expect (by decide)).bind (n := 0) fun close rest _ _ => ?_).mono (Nat.zero_le _)
    exact ih.postfixes (by omega)
  · refine (Honest.advance (n := 0) (by rw [here]; decide) fun t rest _ => ?_).mono (Nat.zero_le _)
    refine (Honest.name.bind (n := 0) fun field rest _ _ => ?_).mono (Nat.zero_le _)
    exact ih.postfixes (by omega)
  · exact .pure _

private theorem arguments_succ (ih : ExprHonest n) {ls : List Lexeme} (room : 16 * ls.length + 4 ≤ n + 1) :
    Honest 0 (Parser.arguments (n + 1)) ls := by
  rw [Parser.arguments]
  refine .isAt (fun _ => .pure _) fun _ => ?_
  refine ((ih.expr (by omega)).bind (n := 0) fun arg rest _ _ => ?_).mono (Nat.zero_le _)
  refine .isAt (fun comma => ?_) fun _ => .pure _
  refine (Honest.advance (n := 0) (by rw [comma]; decide) fun t rest _ => ?_).mono (Nat.zero_le _)
  exact (ih.arguments (by omega)).bind (n := 0) fun others rest _ _ => .pure _

private theorem inits_succ (ih : ExprHonest n) {ls : List Lexeme} (room : 16 * ls.length + 1 ≤ n + 1) :
    Honest 0 (fieldInits (n + 1)) ls := by
  rw [fieldInits]
  refine .isAt (fun _ => .pure _) fun _ => ?_
  refine (Honest.name.bind (n := 0) fun field rest _ _ => ?_).mono (Nat.zero_le _)
  refine ((Honest.expect (by decide)).bind (n := 0) fun colon rest _ _ => ?_).mono (Nat.zero_le _)
  refine ((ih.expr (by omega)).bind (n := 0) fun value rest _ _ => ?_).mono (Nat.zero_le _)
  refine .isAt (fun comma => ?_) fun _ => .pure _
  refine (Honest.advance (n := 0) (by rw [comma]; decide) fun t rest _ => ?_).mono (Nat.zero_le _)
  exact (ih.inits (by omega)).bind (n := 0) fun others rest _ _ => .pure _

private theorem primary_succ (ih : ExprHonest n) {ls : List Lexeme} (room : 16 * ls.length + 1 ≤ n + 1) :
    Honest 1 (Parser.primary (n + 1)) ls := by
  rw [Parser.primary]
  refine .current fun t isKind => ?_
  generalize t.kind = k at isKind
  have leaf {k' : Kind} (known : k = k') (proper : k' ≠ .eof ∧ k' ≠ .invalid) (e : Expr) :
      Honest 1 (Parser.advance >>= fun _ => pure e) ls :=
    .advance (n := 0) (by rwa [← isKind, known]) fun _ _ _ => .pure _
  split
  · refine Honest.advance (n := 0) (by rw [← isKind]; decide) fun _ rest _ => ?_
    refine .isAt (fun brace => ?_) fun _ => .pure _
    refine (Honest.advance (n := 0) (by rw [brace]; decide) fun _ rest _ => ?_).mono (Nat.zero_le _)
    refine (ih.inits (by omega)).bind (n := 0) fun fields rest _ _ => ?_
    exact ((Honest.expect (by decide)).bind (n := 0) fun close rest _ _ => .pure _).mono (Nat.zero_le _)
  · exact leaf rfl (by decide) _
  · exact leaf rfl (by decide) _
  · exact leaf rfl (by decide) _
  · exact leaf rfl (by decide) _
  · exact leaf rfl (by decide) _
  · exact leaf rfl (by decide) _
  · exact leaf rfl (by decide) _
  · refine Honest.advance (n := 0) (by rw [← isKind]; decide) fun _ rest _ => ?_
    refine ((ih.expr (by omega)).bind (n := 0) fun inner rest _ _ => ?_).mono (Nat.zero_le _)
    exact ((Honest.expect (by decide)).bind (n := 0) fun close rest _ _ => .pure _).mono (Nat.zero_le _)
  · exact .unexpected _

end ExprHonest

theorem exprHonest : ∀ n, ExprHonest n
  | 0 => ⟨nofun, nofun, nofun, nofun, nofun, nofun, nofun⟩
  | n + 1 =>
    have ih := exprHonest n
    ⟨ih.expr_succ, ih.tail_succ, ih.unary_succ, ih.postfixes_succ, ih.arguments_succ, ih.inits_succ, ih.primary_succ⟩

/-- The productions of statements, at a bound that the lexemes do not reach. -/
structure StmtHonest (n : Nat) : Prop where
  body : ∀ {ls : List Lexeme}, 16 * ls.length + 5 ≤ n → Honest 1 (body n) ls
  lines : ∀ {ls : List Lexeme}, 16 * ls.length + 5 ≤ n → Honest 1 (bodyStmts n) ls
  stmt : ∀ {ls : List Lexeme}, 16 * ls.length + 4 ≤ n → Honest 1 (stmt n) ls
  cond : ∀ {ls : List Lexeme}, look ls = .kwIf → 16 * ls.length + 1 ≤ n → Honest 1 (conditional n) ls

namespace StmtHonest

private theorem body_succ (ih : StmtHonest n) {ls : List Lexeme} (room : 16 * ls.length + 5 ≤ n + 1) :
    Honest 1 (Parser.body (n + 1)) ls := by
  rw [Parser.body]
  refine .isAt (fun broken => ?_) fun _ => ?_
  · refine Honest.advance (n := 0) (by rw [broken]; decide) fun t rest _ => ?_
    refine ((Honest.expect (by decide)).bind (n := 0) fun indent rest _ _ => ?_).mono (Nat.zero_le _)
    exact ((ih.lines (by omega)).bind (n := 0) fun ss rest _ _ => .pure _).mono (Nat.zero_le _)
  · exact (ih.stmt (by omega)).bind (n := 0) fun s rest _ _ => .pure _

private theorem lines_succ (ih : StmtHonest n) {ls : List Lexeme} (room : 16 * ls.length + 5 ≤ n + 1) :
    Honest 1 (bodyStmts (n + 1)) ls := by
  rw [bodyStmts]
  refine (ih.stmt (by omega)).bind (n := 0) fun s rest _ _ => ?_
  refine (Honest.endOfStmt s.2).bind (n := 0) fun u rest _ _ => ?_
  refine .isAt (fun last => ?_) fun _ => ?_
  · exact (Honest.advance (n := 0) (by rw [last]; decide) fun t rest _ => .pure _).mono (Nat.zero_le _)
  · exact ((ih.lines (by omega)).bind (n := 0) fun ss rest _ _ => .pure _).mono (Nat.zero_le _)

private theorem cond_succ (ih : StmtHonest n) {ls : List Lexeme} (atIf : look ls = .kwIf)
    (room : 16 * ls.length + 1 ≤ n + 1) : Honest 1 (conditional (n + 1)) ls := by
  rw [conditional]
  refine Honest.advance (n := 0) (by rw [atIf]; decide) fun t rest _ => ?_
  refine (((exprHonest n).expr (by omega)).bind (n := 0) fun test rest _ _ => ?_).mono (Nat.zero_le _)
  refine ((Honest.expect (by decide)).bind (n := 0) fun colon rest _ _ => ?_).mono (Nat.zero_le _)
  refine ((ih.body (by omega)).bind (n := 0) fun yes rest _ _ => ?_).mono (Nat.zero_le _)
  refine .isAt (fun more => ?_) fun _ => .pure _
  refine (Honest.advance (n := 0) (by rw [more]; decide) fun t rest _ => .kind ?_).mono (Nat.zero_le _)
  generalize next : look rest = k
  split
  · exact ((ih.cond next (by omega)).bind (n := 0) fun nested rest _ _ => .pure _).mono (Nat.zero_le _)
  · refine (Honest.advance (n := 0) (by rw [next]; decide) fun t rest _ => ?_).mono (Nat.zero_le _)
    exact ((ih.body (by omega)).bind (n := 0) fun no rest _ _ => .pure _).mono (Nat.zero_le _)
  · exact .unexpected _

private theorem stmt_succ (ih : StmtHonest n) {ls : List Lexeme} (room : 16 * ls.length + 4 ≤ n + 1) :
    Honest 1 (Parser.stmt (n + 1)) ls := by
  rw [Parser.stmt]
  refine .current fun t isKind => ?_
  generalize t.kind = k at isKind
  have exprs := exprHonest n
  split
  · exact ih.cond isKind.symm (by omega)
  · refine Honest.advance (n := 0) (by rw [← isKind]; decide) fun _ rest _ => .kind ?_
    split
    · exact .pure _
    · exact ((exprs.expr (by omega)).bind (n := 0) fun value rest _ _ => .pure _).mono (Nat.zero_le _)
  · exact Honest.advance (n := 0) (by rw [← isKind]; decide) fun _ rest _ => .pure _
  · refine Honest.advance (n := 0) (by rw [← isKind]; decide) fun _ rest _ => ?_
    refine ((Honest.expect (by decide)).bind (n := 0) fun colon rest _ _ => ?_).mono (Nat.zero_le _)
    exact ((ih.body (by omega)).bind (n := 0) fun b rest _ _ => .pure _).mono (Nat.zero_le _)
  · refine Honest.advance (n := 0) (by rw [← isKind]; decide) fun _ rest _ => ?_
    refine (Honest.name.bind (n := 0) fun x rest _ _ => ?_).mono (Nat.zero_le _)
    refine ((Honest.expect (by decide)).bind (n := 0) fun colon rest _ _ => ?_).mono (Nat.zero_le _)
    refine (Honest.type.bind (n := 0) fun ty rest _ _ => ?_).mono (Nat.zero_le _)
    refine ((Honest.expect (by decide)).bind (n := 0) fun sign rest _ _ => ?_).mono (Nat.zero_le _)
    exact ((exprs.expr (by omega)).bind (n := 0) fun value rest _ _ => .pure _).mono (Nat.zero_le _)
  · exact Honest.advance (n := 0) (by rw [← isKind]; decide) fun _ rest _ => .pure _
  · exact (exprs.expr (by omega)).bind (n := 0) fun x rest _ _ => .pure _

end StmtHonest

theorem stmtHonest : ∀ n, StmtHonest n
  | 0 => ⟨nofun, nofun, nofun, fun _ => nofun⟩
  | n + 1 =>
    have ih := stmtHonest n
    ⟨ih.body_succ, ih.lines_succ, ih.stmt_succ, ih.cond_succ⟩

/-! ## Declarations -/

theorem params_honest : ∀ {n : Nat} {ls : List Lexeme}, 16 * ls.length + 1 ≤ n → Honest 1 (params n) ls
  | 0, _, room => absurd room (Nat.not_succ_le_zero _)
  | n + 1, ls, room => by
    rw [params]
    refine Honest.field.bind (n := 0) fun p rest _ _ => ?_
    refine .isAt (fun comma => ?_) fun _ => .pure _
    refine (Honest.advance (n := 0) (by rw [comma]; decide) fun t rest _ => ?_).mono (Nat.zero_le _)
    exact ((params_honest (by omega)).bind (n := 0) fun others rest _ _ => .pure _).mono (Nat.zero_le _)

theorem fieldLines_honest : ∀ {n : Nat} {ls : List Lexeme}, 16 * ls.length + 1 ≤ n → Honest 1 (fieldLines n) ls
  | 0, _, room => absurd room (Nat.not_succ_le_zero _)
  | n + 1, ls, room => by
    rw [fieldLines]
    refine Honest.field.bind (n := 0) fun p rest _ _ => ?_
    refine (Honest.endOfStmt false).bind (n := 0) fun u rest _ _ => ?_
    refine .isAt (fun last => ?_) fun _ => ?_
    · exact (Honest.advance (n := 0) (by rw [last]; decide) fun t rest _ => .pure _).mono (Nat.zero_le _)
    · exact ((fieldLines_honest (by omega)).bind (n := 0) fun others rest _ _ => .pure _).mono (Nat.zero_le _)

theorem bracedFields_honest : ∀ {n : Nat} {ls : List Lexeme}, 16 * ls.length + 1 ≤ n → Honest 0 (bracedFields n) ls
  | 0, _, room => absurd room (Nat.not_succ_le_zero _)
  | n + 1, ls, room => by
    rw [bracedFields]
    refine .isAt (fun _ => .pure _) fun _ => ?_
    refine (Honest.field.bind (n := 0) fun p rest _ _ => ?_).mono (Nat.zero_le _)
    refine .isAt (fun comma => ?_) fun _ => .pure _
    refine (Honest.advance (n := 0) (by rw [comma]; decide) fun t rest _ => ?_).mono (Nat.zero_le _)
    exact (bracedFields_honest (by omega)).bind (n := 0) fun others rest _ _ => .pure _

/-- What follows the parameters of a function. -/
theorem signature_honest (head : Span) (name : String × Span) (ps : List Param) {ls : List Lexeme}
    (left : 16 * ls.length ≤ n) : Honest 0 (do
      let _ ← expect .rparen
      let _ ← expect .arrow
      let ret ← type
      let _ ← expect .colon
      let (b, closed) ← body n
      return (Item.fn ⟨name.1, name.2, ps, ret, b, head.cover b.span⟩, closed)) ls := by
  refine ((Honest.expect (by decide)).bind (n := 0) fun closing rest _ _ => ?_).mono (Nat.zero_le _)
  refine ((Honest.expect (by decide)).bind (n := 0) fun arrow rest _ _ => ?_).mono (Nat.zero_le _)
  refine (Honest.type.bind (n := 0) fun ret rest _ _ => ?_).mono (Nat.zero_le _)
  refine ((Honest.expect (by decide)).bind (n := 0) fun colon rest _ _ => ?_).mono (Nat.zero_le _)
  exact (((stmtHonest n).body (by omega)).bind (n := 0) fun b rest _ _ => .pure _).mono (Nat.zero_le _)

theorem fnItem_honest {ls : List Lexeme} (atFun : look ls = .kwFun) (room : 16 * ls.length ≤ n) :
    Honest 1 (fnItem n) ls := by
  rw [fnItem]
  refine Honest.advance (n := 0) (by rw [atFun]; decide) fun t rest _ => ?_
  refine (Honest.name.bind (n := 0) fun x rest _ _ => ?_).mono (Nat.zero_le _)
  refine ((Honest.expect (by decide)).bind (n := 0) fun opening rest _ _ => ?_).mono (Nat.zero_le _)
  refine .isAt (fun _ => signature_honest t.span x [] (by omega)) fun _ => ?_
  exact ((params_honest (by omega)).bind (n := 0) fun ps rest _ _ => signature_honest t.span x ps (by omega)).mono
    (Nat.zero_le _)

theorem structItem_honest {ls : List Lexeme} (atType : look ls = .kwType) (room : 16 * ls.length ≤ n) :
    Honest 1 (structItem n) ls := by
  rw [structItem]
  refine Honest.advance (n := 0) (by rw [atType]; decide) fun t rest _ => ?_
  refine (Honest.name.bind (n := 0) fun x rest _ _ => .kind ?_).mono (Nat.zero_le _)
  generalize next : look rest = k
  split
  · refine (Honest.advance (n := 0) (by rw [next]; decide) fun t rest _ => ?_).mono (Nat.zero_le _)
    refine ((Honest.expect (by decide)).bind (n := 0) fun first rest _ _ => ?_).mono (Nat.zero_le _)
    refine ((Honest.expect (by decide)).bind (n := 0) fun second rest _ _ => ?_).mono (Nat.zero_le _)
    exact ((fieldLines_honest (by omega)).bind (n := 0) fun fields rest _ _ => .pure _).mono (Nat.zero_le _)
  · refine (Honest.advance (n := 0) (by rw [next]; decide) fun t rest _ => ?_).mono (Nat.zero_le _)
    refine (bracedFields_honest (by omega)).bind (n := 0) fun fields rest _ _ => ?_
    exact ((Honest.expect (by decide)).bind (n := 0) fun close rest _ _ => .pure _).mono (Nat.zero_le _)
  · exact .unexpected _

theorem item_honest {ls : List Lexeme} (room : 16 * ls.length ≤ n) : Honest 1 (item n) ls := by
  rw [item]
  refine .kind ?_
  generalize here : look ls = k
  split
  · exact fnItem_honest here room
  · exact structItem_honest here room
  · exact .unexpected _

theorem items_honest : ∀ {n : Nat} {ls : List Lexeme}, 16 * ls.length + 1 ≤ n → Honest 0 (items false n) ls
  | 0, _, room => absurd room (Nat.not_succ_le_zero _)
  | n + 1, ls, room => by
    rw [items]
    refine .kind ?_
    generalize here : look ls = k
    split
    · exact (Honest.advance (n := 0) (by rw [here]; decide) fun t rest _ => items_honest (by omega)).mono (Nat.zero_le _)
    · exact .pure _
    · refine ((item_honest (by omega)).bind (n := 0) fun i rest _ _ => ?_).mono (Nat.zero_le _)
      refine (Honest.endOfItem i.2).bind (n := 0) fun u rest _ _ => ?_
      exact (items_honest (by omega)).bind (n := 0) fun others rest _ _ => .pure _

end Parser

/-! ## Files -/

/-- A parse that fails has taken tokens only, and its fault is one of the source at the lexeme where it stopped. -/
theorem parse_error {ls : List Lexeme} {e : SyntaxError} (run : parse ls = .error e) :
    e.Caused ∧ ∃ ts, ls = ts ++ e.rest ∧ Proper ts := by
  have room : 16 * ls.length + 1 ≤ Parser.depthBound ls.length := by
    unfold Parser.depthBound
    omega
  unfold parse at run
  split at run
  · next e' failed =>
    cases run
    exact (Parser.items_honest room).error failed
  · cases run

end PineLang
