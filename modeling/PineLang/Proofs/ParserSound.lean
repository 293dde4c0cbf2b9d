import PineLang.Proofs.ParserSteps

/-!
What the parser accepts, stated against the grammar: the lexemes that a production has taken are
derivable as what it returns. The bound on the depth plays no part, since a production that reaches
it returns nothing.
-/
namespace PineLang
namespace Parser
open Grammar

/-! ## Operators -/

/-- No operator of at least the given precedence comes next. -/
def Stops (least : Nat) (ls : List Lexeme) : Prop :=
  ∀ op, (look ls).joiner? = some op → op.precedence < least

theorem precedence_of_joiner {k : Kind} {op : BinaryOp} (isOp : k.joiner? = some (.op op)) :
    2 ≤ op.precedence := by
  cases k <;> cases isOp <;> decide

theorem joiner_assign {k : Kind} (isAssign : k.joiner? = some .assign) : k = .assign := by
  cases k <;> first | rfl | cases isAssign

theorem stops_one {ls : List Lexeme} (stops : Stops 1 ls) : (look ls).joiner? = none := by
  cases joins : (look ls).joiner? with
  | none => rfl
  | some op =>
    have small := stops op joins
    cases op with
    | assign => exact absurd small (by decide)
    | op o =>
      have large := precedence_of_joiner joins
      simp only [Joiner.precedence] at small
      omega

theorem isTarget_iff {e : Expr} : isTarget e = true ↔ Target e := by
  constructor
  · intro is
    cases e <;> first | exact .variable | exact .field | cases is
  · rintro (_ | _) <;> rfl

/-- A variable or a field is an operand, whatever operators were allowed. -/
theorem prefixed_of_target {least : Nat} {ts : List Lexeme} {e : Expr} (derived : Expression least ts e)
    (isTarget : Target e) : Prefixed ts e := by
  cases derived with
  | operand inner => exact inner
  | binary => cases isTarget
  | assign => cases isTarget

theorem join_ok {op : Joiner} {left right e : Expr} {ls rest : List Lexeme}
    (run : join op left right ls = .ok (e, rest)) :
    rest = ls ∧ match op with
      | .op o => e = .binary (left.span.cover right.span) o left right
      | .assign => Target left ∧ e = .assign (left.span.cover right.span) left right := by
  cases op with
  | op o =>
    cases run
    exact ⟨rfl, rfl⟩
  | assign =>
    by_cases target : isTarget left = true
    · simp only [join, target, if_true, pure_apply, Except.ok.injEq, Prod.mk.injEq] at run
      exact ⟨run.2.symm, isTarget_iff.mp target, run.1.symm⟩
    · simp [join, target] at run

/-! ## Expressions -/

/-- What the productions of expressions return at a bound on the depth. -/
structure ExprSound (n : Nat) : Prop where
  expr : ∀ {least : Nat} {ls rest : List Lexeme} {e : Expr}, expr n least ls = .ok (e, rest) →
    ∃ ts, ls = ts ++ rest ∧ Expression least ts e ∧ Stops least rest
  tail : ∀ {least : Nat} {us ls rest : List Lexeme} {left e : Expr}, Expression least us left →
    (∀ o, (look ls).joiner? = some (.op o) → Expression o.precedence us left) →
    exprTail n least left ls = .ok (e, rest) →
    ∃ ts, ls = ts ++ rest ∧ Expression least (us ++ ts) e ∧ Stops least rest
  unary : ∀ {ls rest : List Lexeme} {e : Expr}, unary n ls = .ok (e, rest) →
    ∃ ts, ls = ts ++ rest ∧ Prefixed ts e
  postfixes : ∀ {us ls rest : List Lexeme} {target e : Expr}, Postfixed us target →
    postfixes n target ls = .ok (e, rest) → ∃ ts, ls = ts ++ rest ∧ Postfixed (us ++ ts) e
  arguments : ∀ {ls rest : List Lexeme} {es : List Expr}, arguments n ls = .ok (es, rest) →
    ∃ ts, ls = ts ++ rest ∧ Arguments ts es
  inits : ∀ {ls rest : List Lexeme} {fs : List FieldInit}, fieldInits n ls = .ok (fs, rest) →
    ∃ ts, ls = ts ++ rest ∧ Inits ts fs
  primary : ∀ {ls rest : List Lexeme} {e : Expr}, primary n ls = .ok (e, rest) →
    ∃ ts, ls = ts ++ rest ∧ Primary ts e

namespace ExprSound
variable {n : Nat}

private theorem expr_succ (ih : ExprSound n) {least : Nat} {ls rest : List Lexeme} {e : Expr}
    (run : Parser.expr (n + 1) least ls = .ok (e, rest)) :
    ∃ ts, ls = ts ++ rest ∧ Expression least ts e ∧ Stops least rest := by
  simp only [Parser.expr, bind_ok_iff] at run
  obtain ⟨left, mid, first, run⟩ := run
  obtain ⟨us, rfl, operand⟩ := ih.unary first
  obtain ⟨ts, rfl, whole, stops⟩ := ih.tail (.operand operand) (fun o _ => .operand operand) run
  exact ⟨us ++ ts, by simp, whole, stops⟩

private theorem tail_succ (ih : ExprSound n) {least : Nat} {us ls rest : List Lexeme} {left e : Expr}
    (derived : Expression least us left)
    (ready : ∀ o, (look ls).joiner? = some (.op o) → Expression o.precedence us left)
    (run : exprTail (n + 1) least left ls = .ok (e, rest)) :
    ∃ ts, ls = ts ++ rest ∧ Expression least (us ++ ts) e ∧ Stops least rest := by
  simp only [exprTail, kind_bind] at run
  cases joins : (look ls).joiner? with
  | none =>
    rw [joins] at run
    cases run
    exact ⟨[], rfl, by simpa using derived, by simp [Stops, joins]⟩
  | some op =>
    simp only [joins] at run
    by_cases low : op.precedence < least
    · simp only [low, if_true, pure_apply, Except.ok.injEq, Prod.mk.injEq] at run
      obtain ⟨rfl, rfl⟩ := run
      refine ⟨[], rfl, by simpa using derived, ?_⟩
      intro other joins'
      rw [joins] at joins'
      cases joins'
      exact low
    · simp only [low, if_false, bind_ok_iff] at run
      obtain ⟨t, mid, taken, right, mid', second, joined, mid'', combined, run⟩ := run
      have inside : look ls ≠ .eof := by rintro atEnd; rw [atEnd] at joins; cases joins
      obtain ⟨sign, tail, rfl, isKind⟩ := cons_of_look rfl inside
      cases taken
      obtain ⟨rs, rfl, rhs, stops⟩ := ih.expr second
      obtain ⟨rfl, shape⟩ := join_ok combined
      cases op with
      | op o =>
        simp only at shape
        subst shape
        have more : ∀ q, q ≤ o.precedence → Expression q (us ++ sign :: rs) (.binary _ o left right) :=
          fun q bound => .binary (ready o joins) joins bound rhs
        have next : ∀ o', (look mid'').joiner? = some (.op o') → o'.precedence ≤ o.precedence := by
          intro o' joins'
          have small := stops (.op o') joins'
          simp only [Joiner.precedence, Joiner.rightPrecedence] at small
          omega
        obtain ⟨ts, rfl, whole, stops'⟩ := ih.tail (more least (Nat.le_of_not_lt low))
          (fun o' joins' => more o'.precedence (next o' joins')) run
        exact ⟨sign :: (rs ++ ts), by simp, by simpa using whole, stops'⟩
      | assign =>
        obtain ⟨target, rfl⟩ := shape
        have whole : Expression least (us ++ sign :: rs) (.assign _ left right) :=
          .assign (prefixed_of_target derived target) target (joiner_assign joins) (Nat.le_of_not_lt low) rhs
        have done : (look mid'').joiner? = none := stops_one stops
        obtain ⟨ts, rfl, whole', stops'⟩ := ih.tail whole (fun o' joins' => by simp [done] at joins') run
        exact ⟨sign :: (rs ++ ts), by simp, by simpa using whole', stops'⟩

private theorem unary_succ (ih : ExprSound n) {ls rest : List Lexeme} {e : Expr}
    (run : Parser.unary (n + 1) ls = .ok (e, rest)) : ∃ ts, ls = ts ++ rest ∧ Prefixed ts e := by
  simp only [Parser.unary, kind_bind] at run
  cases isOp : (look ls).unary? with
  | some op =>
    have inside : look ls ≠ .eof := by rintro atEnd; rw [atEnd] at isOp; cases isOp
    obtain ⟨sign, tail, rfl, _⟩ := cons_of_look rfl inside
    simp only [isOp, advance_bind_cons, bind_ok_iff] at run
    obtain ⟨operand, mid, inner, run⟩ := run
    obtain ⟨ts, rfl, derived⟩ := ih.unary inner
    cases run
    exact ⟨sign :: ts, rfl, .sign isOp derived⟩
  | none =>
    simp only [isOp, bind_ok_iff] at run
    obtain ⟨head, mid, first, run⟩ := run
    obtain ⟨us, rfl, derived⟩ := ih.primary first
    obtain ⟨ts, rfl, whole⟩ := ih.postfixes (.plain derived) run
    exact ⟨us ++ ts, by simp, .plain whole⟩

private theorem postfixes_succ (ih : ExprSound n) {us ls rest : List Lexeme} {target e : Expr}
    (derived : Postfixed us target) (run : Parser.postfixes (n + 1) target ls = .ok (e, rest)) :
    ∃ ts, ls = ts ++ rest ∧ Postfixed (us ++ ts) e := by
  simp only [Parser.postfixes, kind_bind] at run
  generalize here : look ls = k at run
  split at run
  · obtain ⟨opening, tail, rfl, opens⟩ := cons_of_look here (by decide)
    simp only [advance_bind_cons, bind_ok_iff] at run
    obtain ⟨args, mid, inner, close, mid', closed, run⟩ := run
    obtain ⟨as, rfl, arguments⟩ := ih.arguments inner
    obtain ⟨closing, rfl, closes, rfl⟩ := (expect_ok_iff (by decide)).mp closed
    obtain ⟨ts, rfl, whole⟩ := ih.postfixes (.call derived opens arguments closes) run
    exact ⟨opening :: (as ++ closing :: ts), by simp, by simpa using whole⟩
  · obtain ⟨point, tail, rfl, isPoint⟩ := cons_of_look here (by decide)
    simp only [advance_bind_cons, bind_ok_iff, Prod.exists, name_ok_iff] at run
    obtain ⟨x, span, mid, ⟨field, rfl, isName, rfl, rfl⟩, run⟩ := run
    obtain ⟨ts, rfl, whole⟩ := ih.postfixes (.member derived isPoint isName) run
    exact ⟨point :: field :: ts, by simp, by simpa using whole⟩
  · cases run
    exact ⟨[], rfl, by simpa using derived⟩

private theorem arguments_succ (ih : ExprSound n) {ls rest : List Lexeme} {es : List Expr}
    (run : Parser.arguments (n + 1) ls = .ok (es, rest)) : ∃ ts, ls = ts ++ rest ∧ Arguments ts es := by
  rw [Parser.arguments] at run
  by_cases ended : look ls = .rparen
  · rw [at_bind ended] at run
    cases run
    exact ⟨[], rfl, .none⟩
  · simp only [notAt_bind ended, Bool.false_eq_true, if_false, bind_ok_iff (p := Parser.expr n 0)] at run
    obtain ⟨arg, mid, first, run⟩ := run
    obtain ⟨ts, rfl, derived, _⟩ := ih.expr first
    by_cases comma : look mid = .comma
    · obtain ⟨sep, tail, rfl, isComma⟩ := cons_of_look comma (by decide)
      simp only [at_bind comma, if_true, advance_bind_cons, bind_ok_iff] at run
      obtain ⟨others, mid', second, run⟩ := run
      obtain ⟨us, rfl, remaining⟩ := ih.arguments second
      cases run
      exact ⟨ts ++ sep :: us, by simp, .more derived isComma remaining⟩
    · rw [notAt_bind comma] at run
      cases run
      exact ⟨ts, rfl, .last derived⟩

private theorem inits_succ (ih : ExprSound n) {ls rest : List Lexeme} {fs : List FieldInit}
    (run : fieldInits (n + 1) ls = .ok (fs, rest)) : ∃ ts, ls = ts ++ rest ∧ Inits ts fs := by
  rw [fieldInits] at run
  by_cases ended : look ls = .rbrace
  · rw [at_bind ended] at run
    cases run
    exact ⟨[], rfl, .none⟩
  · simp only [notAt_bind ended, Bool.false_eq_true, if_false, bind_ok_iff (p := Parser.expr n 0),
      bind_ok_iff (p := name), bind_ok_iff (p := expect .colon), Prod.exists, name_ok_iff] at run
    obtain ⟨x, span, mid, ⟨field, rfl, isName, rfl, rfl⟩, t, mid', separated, e, mid'', value, run⟩ := run
    obtain ⟨colon, rfl, isColon, rfl⟩ := (expect_ok_iff (by decide)).mp separated
    obtain ⟨ts, rfl, derived, _⟩ := ih.expr value
    by_cases comma : look mid'' = .comma
    · obtain ⟨sep, tail, rfl, isComma⟩ := cons_of_look comma (by decide)
      simp only [at_bind comma, if_true, advance_bind_cons, bind_ok_iff] at run
      obtain ⟨others, mid', second, run⟩ := run
      obtain ⟨us, rfl, remaining⟩ := ih.inits second
      cases run
      exact ⟨field :: colon :: (ts ++ sep :: us), by simp, .more isName isColon derived isComma remaining⟩
    · rw [notAt_bind comma] at run
      cases run
      exact ⟨field :: colon :: ts, rfl, .last isName isColon derived⟩

private theorem primary_succ (ih : ExprSound n) {ls rest : List Lexeme} {e : Expr}
    (run : Parser.primary (n + 1) ls = .ok (e, rest)) : ∃ ts, ls = ts ++ rest ∧ Primary ts e := by
  cases ls with
  | nil => exact absurd run (by simp [Parser.primary, current, bind, unexpected_ne_ok])
  | cons l tail =>
    have read : l.toToken.kind = l.kind := rfl
    cases found : leaf? l with
    | some e' =>
      by_cases literal : l.kind = .ident ∧ look tail = .lbrace
      · obtain ⟨isName, brace⟩ := literal
        obtain ⟨opening, tail, rfl, opens⟩ := cons_of_look brace (by decide)
        simp only [Parser.primary, current_bind_cons, read, isName, advance_bind_cons, at_bind brace, if_true,
          bind_ok_iff] at run
        obtain ⟨fields, mid, inner, close, mid', closed, run⟩ := run
        obtain ⟨ts, rfl, inits⟩ := ih.inits inner
        obtain ⟨closing, rfl, closes, rfl⟩ := (expect_ok_iff (by decide)).mp closed
        cases run
        exact ⟨l :: opening :: (ts ++ [closing]), by simp, .literal isName opens inits closes⟩
      · rw [primary_leaf found n (fun isName brace => literal ⟨isName, brace⟩)] at run
        cases run
        exact ⟨[l], rfl, .leaf found⟩
    | none =>
      simp only [Parser.primary, current_bind_cons, read] at run
      generalize kind : l.kind = k at run
      split at run
      case h_9 =>
        simp only [advance_bind_cons, bind_ok_iff] at run
        obtain ⟨inner, mid, first, close, mid', closed, run⟩ := run
        obtain ⟨ts, rfl, derived, _⟩ := ih.expr first
        obtain ⟨closing, rfl, closes, rfl⟩ := (expect_ok_iff (by decide)).mp closed
        cases run
        exact ⟨l :: (ts ++ [closing]), by simp, .group kind derived closes⟩
      case h_10 => exact absurd run (unexpected_ne_ok _ _ _)
      all_goals simp [leaf?, kind] at found

end ExprSound

/-- Every production of expressions returns what the grammar derives. -/
theorem exprSound : ∀ n, ExprSound n
  | 0 => ⟨nofun, fun _ _ => nofun, nofun, fun _ => nofun, nofun, nofun, nofun⟩
  | n + 1 =>
    have ih := exprSound n
    ⟨ih.expr_succ, ih.tail_succ, ih.unary_succ, ih.postfixes_succ, ih.arguments_succ, ih.inits_succ,
      ih.primary_succ⟩

/-! ## Statements -/

/-- A separator, or none before the end of a body, can end the last line of the body. -/
theorem lastSeparator {closed : Bool} {sep rest : List Lexeme}
    (ends : Separator closed sep ∨ sep = [] ∧ look rest = .dedent) : LastSeparator closed sep := by
  obtain separator | ⟨rfl, _⟩ := ends
  · cases separator with
    | closed => exact .none
    | line isBreak => exact .line isBreak
  · exact .none

/-- What the productions of statements return at a bound on the depth. An `if` that could take an
    `else` has none before it. -/
structure StmtSound (n : Nat) : Prop where
  body : ∀ {ls rest : List Lexeme} {b : Body} {closed : Bool}, body n ls = .ok ((b, closed), rest) →
    ∃ ts opened, ls = ts ++ rest ∧ Block true ts b closed opened ∧ (opened = true → look rest ≠ .kwElse)
  lines : ∀ {ls rest : List Lexeme} {ss : List Stmt}, bodyStmts n ls = .ok (ss, rest) →
    ∃ ts, ls = ts ++ rest ∧ Lines true ts ss
  stmt : ∀ {ls rest : List Lexeme} {s : Stmt} {closed : Bool}, stmt n ls = .ok ((s, closed), rest) →
    ∃ ts opened, ls = ts ++ rest ∧ Statement true ts s closed opened ∧ (opened = true → look rest ≠ .kwElse)
  cond : ∀ {ls rest : List Lexeme} {s : Stmt} {closed : Bool}, look ls = .kwIf →
    conditional n ls = .ok ((s, closed), rest) →
    ∃ ts opened span test yes no, ls = ts ++ rest ∧ s = .cond span test yes no ∧
      Statement true ts s closed opened ∧ (opened = true → look rest ≠ .kwElse)

namespace StmtSound
variable {n : Nat}

private theorem body_succ (ih : StmtSound n) {ls rest : List Lexeme} {b : Body} {closed : Bool}
    (run : Parser.body (n + 1) ls = .ok ((b, closed), rest)) :
    ∃ ts opened, ls = ts ++ rest ∧ Block true ts b closed opened ∧ (opened = true → look rest ≠ .kwElse) := by
  rw [Parser.body] at run
  by_cases broken : look ls = .newLine
  · obtain ⟨first, tail, rfl, isBreak⟩ := cons_of_look broken (by decide)
    simp only [at_bind broken, if_true, advance_bind_cons, bind_ok_iff] at run
    obtain ⟨t, mid, indented, ss, mid', inner, run⟩ := run
    obtain ⟨second, rfl, isIndent, rfl⟩ := (expect_ok_iff (by decide)).mp indented
    obtain ⟨ts, rfl, lines⟩ := ih.lines inner
    cases run
    exact ⟨first :: second :: ts, false, rfl, .indented isBreak isIndent lines, nofun⟩
  · simp only [notAt_bind broken, Bool.false_eq_true, if_false, bind_ok_iff, Prod.exists] at run
    obtain ⟨s, closed', mid, inner, run⟩ := run
    obtain ⟨ts, opened, rfl, derived, free⟩ := ih.stmt inner
    cases run
    exact ⟨ts, opened, rfl, .line derived, free⟩

private theorem lines_succ (ih : StmtSound n) {ls rest : List Lexeme} {ss : List Stmt}
    (run : bodyStmts (n + 1) ls = .ok (ss, rest)) : ∃ ts, ls = ts ++ rest ∧ Lines true ts ss := by
  simp only [bodyStmts, bind_ok_iff (p := Parser.stmt n), bind_ok_iff (p := endOfStmt _), Prod.exists] at run
  obtain ⟨s, closed, mid, first, u, mid', ended, run⟩ := run
  obtain ⟨ts, opened, rfl, derived, _⟩ := ih.stmt first
  obtain ⟨sep, rfl, ends⟩ := endOfStmt_sound ended
  by_cases last : look mid' = .dedent
  · obtain ⟨stop, tail, rfl, isDedent⟩ := cons_of_look last (by decide)
    simp only [at_bind last, if_true, advance_bind_cons] at run
    cases run
    exact ⟨ts ++ (sep ++ [stop]), by simp, .last derived (lastSeparator ends) isDedent⟩
  · simp only [notAt_bind last, Bool.false_eq_true, if_false, bind_ok_iff] at run
    obtain ⟨others, mid'', second, run⟩ := run
    obtain ⟨us, rfl, remaining⟩ := ih.lines second
    cases run
    have separator : Separator closed sep := ends.resolve_right (fun dedent => last dedent.2)
    exact ⟨ts ++ (sep ++ us), by simp, .more derived separator remaining⟩

private theorem cond_succ (ih : StmtSound n) {ls rest : List Lexeme} {s : Stmt} {closed : Bool}
    (atIf : look ls = .kwIf) (run : conditional (n + 1) ls = .ok ((s, closed), rest)) :
    ∃ ts opened span test yes no, ls = ts ++ rest ∧ s = .cond span test yes no ∧
      Statement true ts s closed opened ∧ (opened = true → look rest ≠ .kwElse) := by
  obtain ⟨head, tail, rfl, isIf⟩ := cons_of_look atIf (by decide)
  simp only [conditional, advance_bind_cons, bind_ok_iff (p := Parser.expr n 0), bind_ok_iff (p := expect .colon),
    bind_ok_iff (p := Parser.body n), Prod.exists] at run
  obtain ⟨test, mid, tested, t, mid', separated, yes, closedYes, mid'', first, run⟩ := run
  obtain ⟨ts, rfl, cond, _⟩ := (exprSound n).expr tested
  obtain ⟨colon, rfl, isColon, rfl⟩ := (expect_ok_iff (by decide)).mp separated
  obtain ⟨bs, openedYes, rfl, derived, free⟩ := ih.body first
  by_cases more : look mid'' = .kwElse
  · obtain ⟨other, after, rfl, isElse⟩ := cons_of_look more (by decide)
    have shut : true = true → openedYes = false := by
      intro _
      cases openedYes with
      | false => rfl
      | true => exact absurd more (free rfl)
    simp only [at_bind more, if_true, advance_bind_cons, kind_bind] at run
    generalize next : look after = k at run
    split at run
    · simp only [bind_ok_iff, Prod.exists] at run
      obtain ⟨nested, closed', mid, second, run⟩ := run
      obtain ⟨cs, opened, span, test', yes', no', rfl, rfl, inner, free'⟩ := ih.cond next second
      cases run
      exact ⟨head :: (ts ++ colon :: (bs ++ other :: cs)), opened, _, _, _, _, by simp, rfl,
        .chain isIf cond isColon derived shut isElse inner, free'⟩
    · obtain ⟨colon', tail', rfl, isColon'⟩ := cons_of_look next (by decide)
      simp only [advance_bind_cons, bind_ok_iff, Prod.exists] at run
      obtain ⟨no, closed', mid, second, run⟩ := run
      obtain ⟨cs, opened, rfl, inner, free'⟩ := ih.body second
      cases run
      exact ⟨head :: (ts ++ colon :: (bs ++ other :: colon' :: cs)), opened, _, _, _, _, by simp, rfl,
        .both isIf cond isColon derived shut isElse isColon' inner, free'⟩
    · exact absurd run (unexpected_ne_ok _ _ _)
  · rw [notAt_bind more] at run
    cases run
    exact ⟨head :: (ts ++ colon :: bs), true, _, _, _, _, by simp, rfl, .only isIf cond isColon derived,
      fun _ => more⟩

private theorem expr_stmt {ls rest : List Lexeme} {s : Stmt} {closed : Bool}
    (run : (Parser.expr n 0 >>= fun x => pure (Stmt.expr x.span x, false)) ls = .ok ((s, closed), rest)) :
    ∃ ts opened, ls = ts ++ rest ∧ Statement true ts s closed opened ∧
      (opened = true → look rest ≠ .kwElse) := by
  simp only [bind_ok_iff] at run
  obtain ⟨e, mid, inner, run⟩ := run
  obtain ⟨ts, rfl, derived, _⟩ := (exprSound n).expr inner
  cases run
  exact ⟨ts, false, rfl, .expr derived, nofun⟩

private theorem stmt_succ (ih : StmtSound n) {ls rest : List Lexeme} {s : Stmt} {closed : Bool}
    (run : Parser.stmt (n + 1) ls = .ok ((s, closed), rest)) :
    ∃ ts opened, ls = ts ++ rest ∧ Statement true ts s closed opened ∧
      (opened = true → look rest ≠ .kwElse) := by
  cases ls with
  | nil => exact expr_stmt run
  | cons head tail =>
    have read : head.toToken.kind = head.kind := rfl
    simp only [Parser.stmt, current_bind_cons, read] at run
    generalize kind : head.kind = k at run
    split at run
    · obtain ⟨ts, opened, _, _, _, _, taken, _, derived, free⟩ := ih.cond (by simpa using kind) run
      exact ⟨ts, opened, taken, derived, free⟩
    · simp only [advance_bind_cons, kind_bind] at run
      by_cases ended : endsReturn (look tail) = true
      · simp only [ended, if_true] at run
        cases run
        exact ⟨[head], false, rfl, .bare kind, (absurd · Bool.false_ne_true)⟩
      · simp only [ended, Bool.false_eq_true, if_false, bind_ok_iff] at run
        obtain ⟨e, mid, inner, run⟩ := run
        obtain ⟨ts, rfl, derived, _⟩ := (exprSound n).expr inner
        cases run
        exact ⟨head :: ts, false, rfl, .value kind derived, (absurd · Bool.false_ne_true)⟩
    · rw [advance_bind_cons] at run
      cases run
      exact ⟨[head], false, rfl, .leave kind, (absurd · Bool.false_ne_true)⟩
    · simp only [advance_bind_cons, bind_ok_iff, Prod.exists] at run
      obtain ⟨t, mid, separated, b, closed', mid', inner, run⟩ := run
      obtain ⟨colon, rfl, isColon, rfl⟩ := (expect_ok_iff (by decide)).mp separated
      obtain ⟨bs, opened, rfl, derived, free⟩ := ih.body inner
      cases run
      exact ⟨head :: colon :: bs, opened, rfl, .loop kind isColon derived, free⟩
    · simp only [advance_bind_cons, bind_ok_iff, Prod.exists, name_ok_iff, type_ok_iff] at run
      obtain ⟨x, span, mid, ⟨name, rfl, isName, rfl, rfl⟩, t, mid', separated, ref, _, ⟨type, rfl, isType⟩,
        t', _, assigned, e, _, inner, run⟩ := run
      obtain ⟨colon, rfl, isColon, rfl⟩ := (expect_ok_iff (by decide)).mp separated
      obtain ⟨sign, rfl, isAssign, rfl⟩ := (expect_ok_iff (by decide)).mp assigned
      obtain ⟨ts, rfl, derived, _⟩ := (exprSound n).expr inner
      cases run
      exact ⟨head :: name :: colon :: type :: sign :: ts, false, rfl,
        .bind kind isName isColon isType isAssign derived, (absurd · Bool.false_ne_true)⟩
    · rw [advance_bind_cons] at run
      cases run
      exact ⟨[head], false, rfl, .empty kind, (absurd · Bool.false_ne_true)⟩
    · exact expr_stmt run

end StmtSound

/-- Every production of statements returns what the grammar derives. -/
theorem stmtSound : ∀ n, StmtSound n
  | 0 => ⟨nofun, nofun, nofun, fun _ => nofun⟩
  | n + 1 =>
    have ih := stmtSound n
    ⟨ih.body_succ, ih.lines_succ, ih.stmt_succ, ih.cond_succ⟩

/-! ## Declarations -/

theorem params_sound : ∀ {n : Nat} {ls rest : List Lexeme} {ps : List Param},
    params n ls = .ok (ps, rest) → ∃ ts, ls = ts ++ rest ∧ Params ts ps
  | 0, _, _, _, run => by cases run
  | n + 1, ls, rest, ps, run => by
    simp only [params, bind_ok_iff (p := field), field_ok_iff] at run
    obtain ⟨p, mid, ⟨ts, rfl, first⟩, run⟩ := run
    by_cases comma : look mid = .comma
    · obtain ⟨sep, tail, rfl, isComma⟩ := cons_of_look comma (by decide)
      simp only [at_bind comma, if_true, advance_bind_cons, bind_ok_iff] at run
      obtain ⟨others, mid', second, run⟩ := run
      obtain ⟨us, rfl, remaining⟩ := params_sound second
      cases run
      exact ⟨ts ++ sep :: us, by simp, .more first isComma remaining⟩
    · rw [notAt_bind comma] at run
      cases run
      exact ⟨ts, rfl, .last first⟩

theorem fieldLines_sound : ∀ {n : Nat} {ls rest : List Lexeme} {ps : List Param},
    fieldLines n ls = .ok (ps, rest) → ∃ ts, ls = ts ++ rest ∧ FieldLines ts ps
  | 0, _, _, _, run => by cases run
  | n + 1, ls, rest, ps, run => by
    simp only [fieldLines, bind_ok_iff (p := field), bind_ok_iff (p := endOfStmt _), field_ok_iff] at run
    obtain ⟨p, mid, ⟨ts, rfl, first⟩, u, mid', ended, run⟩ := run
    obtain ⟨sep, rfl, ends⟩ := endOfStmt_sound ended
    by_cases last : look mid' = .dedent
    · obtain ⟨stop, tail, rfl, isDedent⟩ := cons_of_look last (by decide)
      simp only [at_bind last, if_true, advance_bind_cons] at run
      cases run
      exact ⟨ts ++ (sep ++ [stop]), by simp, .last first (lastSeparator ends) isDedent⟩
    · simp only [notAt_bind last, Bool.false_eq_true, if_false, bind_ok_iff] at run
      obtain ⟨others, _, second, run⟩ := run
      obtain ⟨us, rfl, remaining⟩ := fieldLines_sound second
      cases run
      have separator : Separator false sep := ends.resolve_right (fun dedent => last dedent.2)
      exact ⟨ts ++ (sep ++ us), by simp, .more first separator remaining⟩

theorem bracedFields_sound : ∀ {n : Nat} {ls rest : List Lexeme} {ps : List Param},
    bracedFields n ls = .ok (ps, rest) → ∃ ts, ls = ts ++ rest ∧ BracedFields ts ps
  | 0, _, _, _, run => by cases run
  | n + 1, ls, rest, ps, run => by
    rw [bracedFields] at run
    by_cases ended : look ls = .rbrace
    · rw [at_bind ended] at run
      cases run
      exact ⟨[], rfl, .none⟩
    · simp only [notAt_bind ended, Bool.false_eq_true, if_false, bind_ok_iff (p := field), field_ok_iff] at run
      obtain ⟨p, mid, ⟨ts, rfl, first⟩, run⟩ := run
      by_cases comma : look mid = .comma
      · obtain ⟨sep, tail, rfl, isComma⟩ := cons_of_look comma (by decide)
        simp only [at_bind comma, if_true, advance_bind_cons, bind_ok_iff] at run
        obtain ⟨others, mid', second, run⟩ := run
        obtain ⟨us, rfl, remaining⟩ := bracedFields_sound second
        cases run
        exact ⟨ts ++ sep :: us, by simp, .more first isComma remaining⟩
      · rw [notAt_bind comma] at run
        cases run
        exact ⟨ts, rfl, .last first⟩

theorem fnItem_sound {n : Nat} {ls rest : List Lexeme} {i : Item} {closed : Bool} (atFun : look ls = .kwFun)
    (run : fnItem n ls = .ok ((i, closed), rest)) : ∃ ts, ls = ts ++ rest ∧ Declaration true ts i closed := by
  obtain ⟨head, tail, rfl, isFun⟩ := cons_of_look atFun (by decide)
  simp only [fnItem, advance_bind_cons, bind_ok_iff (p := name), bind_ok_iff (p := expect _), Prod.exists,
    name_ok_iff] at run
  obtain ⟨x, span, _, ⟨name, rfl, isName, rfl, rfl⟩, t, mid, opened, run⟩ := run
  obtain ⟨opening, rfl, opens, rfl⟩ := (expect_ok_iff (by decide)).mp opened
  have params : ∃ ts ps mid', mid = ts ++ mid' ∧ ParamList ts ps ∧
      (do let _ ← expect .rparen
          let _ ← expect .arrow
          let ret ← type
          let _ ← expect .colon
          let read ← Parser.body n
          return (Item.fn ⟨name.text, name.span, ps, ret, read.1, head.toToken.span.cover read.1.span⟩, read.2)) mid' =
        .ok ((i, closed), rest) := by
    by_cases none : look mid = .rparen
    · rw [at_bind none] at run
      exact ⟨[], [], mid, rfl, .none, run⟩
    · simp only [notAt_bind none, Bool.false_eq_true, if_false, bind_ok_iff (p := params n)] at run
      obtain ⟨ps, mid', read, run⟩ := run
      obtain ⟨ts, rfl, derived⟩ := params_sound read
      exact ⟨ts, ps, mid', rfl, .some derived, run⟩
  obtain ⟨ts, ps, mid', rfl, fields, after⟩ := params
  simp only [bind_ok_iff, Prod.exists, type_ok_iff] at after
  obtain ⟨t₁, _, first, t₂, _, second, ref, _, ⟨type, rfl, isType⟩, t₃, _, third, b, closed', _, inner, after⟩ := after
  obtain ⟨closing, rfl, closes, rfl⟩ := (expect_ok_iff (by decide)).mp first
  obtain ⟨arrow, rfl, isArrow, rfl⟩ := (expect_ok_iff (by decide)).mp second
  obtain ⟨colon, rfl, isColon, rfl⟩ := (expect_ok_iff (by decide)).mp third
  obtain ⟨bs, o, rfl, derived, _⟩ := (stmtSound n).body inner
  cases after
  exact ⟨head :: name :: opening :: (ts ++ closing :: arrow :: type :: colon :: bs), by simp,
    .fn isFun isName opens fields closes isArrow isType isColon derived⟩

theorem structItem_sound {n : Nat} {ls rest : List Lexeme} {i : Item} {closed : Bool} (atType : look ls = .kwType)
    (run : structItem n ls = .ok ((i, closed), rest)) : ∃ ts, ls = ts ++ rest ∧ Declaration true ts i closed := by
  obtain ⟨head, tail, rfl, isType⟩ := cons_of_look atType (by decide)
  simp only [structItem, advance_bind_cons, bind_ok_iff (p := name), Prod.exists, name_ok_iff, kind_bind] at run
  obtain ⟨x, span, mid, ⟨name, rfl, isName, rfl, rfl⟩, run⟩ := run
  generalize next : look mid = k at run
  split at run
  · obtain ⟨colon, tail, rfl, isColon⟩ := cons_of_look next (by decide)
    simp only [advance_bind_cons, bind_ok_iff] at run
    obtain ⟨t, _, broken, t', _, indented, ps, _, inner, run⟩ := run
    obtain ⟨first, rfl, isBreak, rfl⟩ := (expect_ok_iff (by decide)).mp broken
    obtain ⟨second, rfl, isIndent, rfl⟩ := (expect_ok_iff (by decide)).mp indented
    obtain ⟨ts, rfl, fields⟩ := fieldLines_sound inner
    cases run
    exact ⟨head :: name :: colon :: first :: second :: ts, rfl,
      .indented isType isName isColon isBreak isIndent fields⟩
  · obtain ⟨opening, tail, rfl, opens⟩ := cons_of_look next (by decide)
    simp only [advance_bind_cons, bind_ok_iff] at run
    obtain ⟨ps, _, inner, t, _, closed', run⟩ := run
    obtain ⟨ts, rfl, fields⟩ := bracedFields_sound inner
    obtain ⟨closing, rfl, closes, rfl⟩ := (expect_ok_iff (by decide)).mp closed'
    cases run
    exact ⟨head :: name :: opening :: (ts ++ [closing]), by simp, .braced isType isName opens fields closes⟩
  · exact absurd run (unexpected_ne_ok _ _ _)

theorem item_sound {n : Nat} {ls rest : List Lexeme} {i : Item} {closed : Bool}
    (run : item n ls = .ok ((i, closed), rest)) : ∃ ts, ls = ts ++ rest ∧ Declaration true ts i closed := by
  simp only [item, kind_bind] at run
  generalize here : look ls = k at run
  split at run
  · exact fnItem_sound here run
  · exact structItem_sound here run
  · exact absurd run (unexpected_ne_ok _ _ _)

/-- A declaration starts with a keyword of its own. -/
theorem look_declaration {nearest closed : Bool} {ts : List Lexeme} {i : Item}
    (derived : Declaration nearest ts i closed) (rest : List Lexeme) :
    look (ts ++ rest) = .kwFun ∨ look (ts ++ rest) = .kwType := by
  cases derived with
  | fn isFun => exact .inl isFun
  | indented isType => exact .inr isType
  | braced isType => exact .inr isType

/-- The declarations of a file are read up to its end. -/
theorem items_sound {cancelled : Bool} : ∀ {n : Nat} {ls rest : List Lexeme} {is : List Item},
    items cancelled n ls = .ok (is, rest) → look rest = .eof ∧ ∃ ts, ls = ts ++ rest ∧ Declarations true ts is
  | 0, _, _, _, run => by cases run
  | n + 1, ls, rest, is, run => by
    simp only [items, kind_bind] at run
    generalize here : look ls = k at run
    split at run
    · obtain ⟨l, tail, rfl, isBreak⟩ := cons_of_look here (by decide)
      obtain ⟨atEnd, ts, rfl, derived⟩ := items_sound run
      exact ⟨atEnd, l :: ts, rfl, .skip isBreak derived⟩
    · cases run
      exact ⟨here, [], rfl, .none⟩
    · have going : cancelled = false := by
        cases cancelled with
        | false => rfl
        | true => cases run
      simp only [going, Bool.false_eq_true, if_false, bind_ok_iff, Prod.exists] at run
      rw [← going] at run
      obtain ⟨i, closed, _, first, u, mid, ended, others, _, second, run⟩ := run
      obtain ⟨ts, rfl, derived⟩ := item_sound first
      obtain ⟨sep, rfl, ends⟩ := endOfItem_sound ended
      obtain ⟨atEnd, us, rfl, remaining⟩ := items_sound second
      cases run
      refine ⟨atEnd, ts ++ (sep ++ us), by simp, .more derived ?_ remaining⟩
      -- A block's end stands before no declaration, so only the end of the file can follow.
      obtain separator | ⟨rfl, stops⟩ := ends
      · exact .inl separator
      · refine .inr ⟨rfl, ?_⟩
        cases remaining with
        | none => rfl
        | skip isBreak => simp [isBreak] at stops
        | more inner =>
          simp only [List.append_assoc] at stops
          obtain starts | starts := look_declaration inner _ <;> rw [starts] at stops <;> simp at stops

end Parser

/-- A list is cut at its first end of the file in one way only. -/
theorem cut_unique {ls ts post rest : List Lexeme} {stop : Lexeme} (ends : stop.kind = .eof)
    (left : ∀ l ∈ ls, l.kind ≠ .eof) (right : ∀ l ∈ ts, l.kind ≠ .eof) (atEnd : Parser.look rest = .eof)
    (same : ls ++ stop :: post = ts ++ rest) : ls = ts ∧ rest = stop :: post := by
  induction ls generalizing ts with
  | nil =>
    cases ts with
    | nil => exact ⟨rfl, same.symm⟩
    | cons t ts =>
      obtain ⟨rfl, _⟩ := List.cons.inj same
      exact absurd ends (List.forall_mem_cons.mp right).1
  | cons l ls ih =>
    cases ts with
    | nil =>
      have whole : rest = l :: (ls ++ stop :: post) := same.symm
      rw [whole] at atEnd
      exact absurd atEnd (List.forall_mem_cons.mp left).1
    | cons t ts =>
      obtain ⟨rfl, tails⟩ := List.cons.inj same
      obtain ⟨rfl, rfl⟩ := ih (List.forall_mem_cons.mp left).2 (List.forall_mem_cons.mp right).2 tails
      exact ⟨rfl, rfl⟩

/-- What the parser returns for the lexemes up to the end of the file is their tree in the grammar. -/
theorem parse_sound {ls post : List Lexeme} {stop : Lexeme} {f : File} {cancelled : Bool} (ends : stop.kind = .eof)
    (inner : ∀ l ∈ ls, l.kind ≠ .eof) (run : parse (ls ++ stop :: post) cancelled = .ok f) :
    Grammar.Source true (ls ++ [stop]) f := by
  unfold parse at run
  split at run
  · cases run
  · next items rest read =>
    obtain ⟨atEnd, ts, taken, derived⟩ := Parser.items_sound read
    obtain ⟨rfl, rfl⟩ := cut_unique ends inner derived.proper.noEnd atEnd taken
    cases run
    have first : (ls ++ stop :: post).head? = (ls ++ [stop]).head? := by cases ls <;> rfl
    rw [first]
    exact .mk derived ends

end PineLang
