import PineLang.Proofs.ParserSound

/-!
What the grammar derives, the parser accepts. A production sees more than the lexemes it takes, so
each statement names what must not come next; and each gives the bound on the depth in the number of
lexemes taken, which the bound of a whole file covers.

The operators of an expression are read in a loop, while its derivation nests them to the left. The
two meet in the statement that reading a derived expression leads to the loop with that expression
as left operand (`Expression.reaches`).
-/
namespace PineLang
open PineLang.Parser
namespace Grammar

/-! ## First lexemes -/

theorem Expression.look_ne {least : Nat} {ts : List Lexeme} {e : Expr} (derived : Expression least ts e) {k : Kind}
    (other : startsExpr k = false) (rest : List Lexeme) : look (ts ++ rest) ≠ k := by
  obtain ⟨l, us, rfl, starts⟩ := derived.first
  intro same
  have kind : l.kind = k := same
  rw [kind, other] at starts
  cases starts

/-! ## What must not come next -/

/-- The operand before these lexemes has ended: no call, no field access and no literal goes on. -/
structure Ended (rest : List Lexeme) : Prop where
  call : look rest ≠ .lparen
  point : look rest ≠ .dot
  brace : look rest ≠ .lbrace

/-- The operand has ended, and an operator that comes next binds no tighter than the given
    precedence, and tighter than assignment. -/
structure EndedAt (least : Nat) (rest : List Lexeme) : Prop extends Ended rest where
  ops : ∀ op, (look rest).joiner? = some op → 2 ≤ op.precedence ∧ op.precedence ≤ least

theorem Ended.of_joiner {sign : Lexeme} {op : Joiner} (isOp : sign.kind.joiner? = some op)
    (rest : List Lexeme) : Ended (sign :: rest) := by
  refine ⟨?_, ?_, ?_⟩ <;> rw [look_cons] <;> intro here <;> rw [here] at isOp <;> cases isOp

theorem EndedAt.of_joiner {sign : Lexeme} {op : BinaryOp} (isOp : sign.kind.joiner? = some (.op op))
    (rest : List Lexeme) : EndedAt op.precedence (sign :: rest) := by
  refine ⟨.of_joiner isOp rest, ?_⟩
  intro other isOther
  have same : Joiner.op op = other := Option.some.inj (isOp.symm.trans isOther)
  rw [← same]
  exact ⟨precedence_of_joiner isOp, Nat.le_refl _⟩

theorem EndedAt.mono {p q : Nat} {rest : List Lexeme} (ended : EndedAt p rest) (bound : p ≤ q) : EndedAt q rest :=
  ⟨ended.toEnded, fun op joins => ⟨(ended.ops op joins).1, Nat.le_trans (ended.ops op joins).2 bound⟩⟩

theorem EndedAt.stops {rest : List Lexeme} (ended : EndedAt 0 rest) : Stops 0 rest := by
  intro op joins
  have := ended.ops op joins
  omega

/-- A kind that ends an expression whatever came before. -/
theorem EndedAt.of_kind {k : Kind} {rest : List Lexeme} (here : look rest = k)
    (ends : k = .rparen ∨ k = .comma ∨ k = .rbrace ∨ k = .colon ∨ endsReturn k = true) (p : Nat) :
    EndedAt p rest := by
  refine ⟨⟨?_, ?_, ?_⟩, ?_⟩ <;> rw [here]
  · rintro rfl; simp [endsReturn] at ends
  · rintro rfl; simp [endsReturn] at ends
  · rintro rfl; simp [endsReturn] at ends
  · intro op joins
    cases k <;> simp [endsReturn, Kind.joiner?] at ends joins

/-- The loop over operators ends where no operator of its precedence comes next. -/
theorem exprTail_stops {m least : Nat} {e : Expr} {rest : List Lexeme} (stops : Stops least rest) (enough : 0 < m) :
    exprTail m least e rest = .ok (e, rest) := by
  obtain ⟨m, rfl⟩ := Nat.exists_eq_succ_of_ne_zero (Nat.ne_of_gt enough)
  simp only [exprTail, kind_bind]
  cases joins : (look rest).joiner? with
  | none => rfl
  | some op => simp [stops op joins]

theorem postfixes_ends {m : Nat} {e : Expr} {rest : List Lexeme} (ended : Ended rest) (enough : 0 < m) :
    postfixes m e rest = .ok (e, rest) := by
  obtain ⟨m, rfl⟩ := Nat.exists_eq_succ_of_ne_zero (Nat.ne_of_gt enough)
  simp only [postfixes, kind_bind]
  have call := ended.call
  have point := ended.point
  generalize look rest = k at call point
  split
  · exact absurd rfl call
  · exact absurd rfl point
  · rfl

/-- One turn of the loop over operators. -/
theorem exprTail_turn {k least : Nat} {sign : Lexeme} {op : Joiner} {left right e : Expr} {mid rest : List Lexeme}
    (isOp : sign.kind.joiner? = some op) (bound : least ≤ op.precedence)
    (read : Parser.expr k op.rightPrecedence mid = .ok (right, rest))
    (joined : join op left right rest = .ok (e, rest)) :
    exprTail (k + 1) least left (sign :: mid) = exprTail k least e rest := by
  simp only [exprTail, kind_bind, look_cons, isOp, Nat.not_lt_of_le bound, if_false, advance_bind_cons]
  rw [bind_of_ok read, bind_of_ok joined]

/-- An expression has been read once the loop behind it is reached and no operator comes next. -/
theorem read_of_reached {n : Nat} {e : Expr} {ts rest : List Lexeme} (room : 16 * ts.length ≤ n + 6)
    (ended : EndedAt 0 rest)
    (reached : ∃ m, n + 10 ≤ m + 16 * ts.length ∧ Parser.expr n 0 (ts ++ rest) = exprTail m 0 e rest) :
    Parser.expr n 0 (ts ++ rest) = .ok (e, rest) := by
  obtain ⟨m, used, run⟩ := reached
  exact run.trans (exprTail_stops ended.stops (by omega))

/-! ## Expressions

A production at bound `n` has room for `ts` if `16 * ts.length` is not much more than `n`. -/

mutual

/-- Reading a derived expression leads to the loop over the operators behind it. -/
theorem Expression.reaches {p : Nat} {ts : List Lexeme} {e : Expr} : Expression p ts e →
    ∀ (q n : Nat) (rest : List Lexeme), q ≤ p → 16 * ts.length ≤ n + 6 → EndedAt p rest →
      ∃ m, n + 10 ≤ m + 16 * ts.length ∧ Parser.expr n q (ts ++ rest) = exprTail m q e rest
  | .operand inner, q, n, rest, _, room, ended => by
    obtain ⟨l, us, same, _⟩ := inner.first
    have size : ts.length = us.length + 1 := by rw [same]; rfl
    obtain ⟨k, rfl⟩ : ∃ k, n = k + 1 := ⟨n - 1, by omega⟩
    refine ⟨k, by omega, ?_⟩
    rw [Parser.expr]
    exact bind_of_ok (inner.reads k rest (by omega) ended.toEnded) _
  | @Expression.binary _ ls rs _ _ sign op lhs isOp bound rhs, q, n, rest, low, room, ended => by
    simp only [List.length_append, List.length_cons] at room ⊢
    obtain ⟨m, used, first⟩ := lhs.reaches q n (sign :: (rs ++ rest)) (Nat.le_trans low bound) (by omega)
      (.of_joiner isOp _)
    obtain ⟨k, rfl⟩ : ∃ k, m = k + 1 := ⟨m - 1, by omega⟩
    obtain ⟨m', used', second⟩ := rhs.reaches (op.precedence + 1) k rest (Nat.le_refl _) (by omega)
      (ended.mono (Nat.le_succ_of_le bound))
    have stops : Stops (op.precedence + 1) rest := fun other joins =>
      Nat.lt_succ_of_le (Nat.le_trans (ended.ops other joins).2 bound)
    have read := second.trans (exprTail_stops stops (by omega))
    refine ⟨k, by omega, ?_⟩
    rw [List.append_assoc, List.cons_append, first]
    exact exprTail_turn isOp (Nat.le_trans low bound) read rfl
  | @Expression.assign _ ls rs left right sign lhs isTarget isAssign bound rhs, q, n, rest, low, room, ended => by
    obtain ⟨l, us, same, _⟩ := lhs.first
    have size : ls.length = us.length + 1 := by rw [same]; rfl
    simp only [List.length_append, List.length_cons] at room ⊢
    have isOp : sign.kind.joiner? = some .assign := by rw [isAssign]; rfl
    obtain ⟨k, rfl⟩ : ∃ k, n = k + 2 := ⟨n - 2, by omega⟩
    have first := lhs.reads (k + 1) (sign :: (rs ++ rest)) (by omega) (.of_joiner isOp _)
    have none : ∀ op, (look rest).joiner? = some op → False := fun op joins => by
      have := ended.ops op joins
      omega
    obtain ⟨m', used', second⟩ := rhs.reaches 1 k rest (Nat.le_refl _) (by omega) (ended.mono bound)
    have read := second.trans (exprTail_stops (fun op joins => (none op joins).elim) (by omega))
    refine ⟨k, by omega, ?_⟩
    rw [List.append_assoc, List.cons_append, Parser.expr, bind_of_ok first]
    have target := isTarget_iff.mpr isTarget
    exact exprTail_turn isOp (Nat.le_trans low bound) read (by simp [join, target])
termination_by structural derived => derived

theorem Prefixed.reads {ts : List Lexeme} {e : Expr} : Prefixed ts e →
    ∀ (n : Nat) (rest : List Lexeme), 16 * ts.length ≤ n + 7 → Ended rest →
      Parser.unary n (ts ++ rest) = .ok (e, rest)
  | .plain inner, n, rest, room, ended => by
    obtain ⟨l, us, same, _, noSign⟩ := inner.first
    have size : ts.length = us.length + 1 := by rw [same]; rfl
    obtain ⟨k, rfl⟩ : ∃ k, n = k + 1 := ⟨n - 1, by omega⟩
    have here : look (ts ++ rest) = l.kind := by rw [same]; rfl
    obtain ⟨m, used, run⟩ := inner.reaches k rest (by omega) ended.brace
    simp only [Parser.unary, kind_bind, here, noSign]
    exact run.trans (postfixes_ends ended (by omega))
  | @Prefixed.sign sign us e' op isOp inner, n, rest, room, ended => by
    simp only [List.length_cons] at room
    obtain ⟨k, rfl⟩ : ∃ k, n = k + 1 := ⟨n - 1, by omega⟩
    simp only [List.cons_append, Parser.unary, kind_bind, look_cons, isOp, advance_bind_cons]
    rw [bind_of_ok (inner.reads k rest (by omega) ended)]
    rfl
termination_by structural derived => derived

/-- Reading a derived operand leads to the loop over the calls and field accesses behind it. -/
theorem Postfixed.reaches {ts : List Lexeme} {e : Expr} : Postfixed ts e →
    ∀ (n : Nat) (rest : List Lexeme), 16 * ts.length ≤ n + 8 → look rest ≠ .lbrace →
      ∃ m, n + 15 ≤ m + 16 * ts.length ∧
        (Parser.primary n >>= fun head => Parser.postfixes n head) (ts ++ rest) = postfixes m e rest
  | .plain inner, n, rest, room, brace => by
    obtain ⟨l, us, same, _⟩ := inner.first
    have size : ts.length = us.length + 1 := by rw [same]; rfl
    exact ⟨n, by omega, bind_of_ok (inner.reads n rest room brace) _⟩
  | @Postfixed.call fs as _ _ opening closing callee opens inner closes, n, rest, room, _ => by
    simp only [List.length_append, List.length_cons, List.length_nil] at room ⊢
    obtain ⟨m, used, first⟩ := callee.reaches n (opening :: (as ++ closing :: rest)) (by omega) (by simp [opens])
    obtain ⟨k, rfl⟩ : ∃ k, m = k + 1 := ⟨m - 1, by omega⟩
    refine ⟨k, by omega, ?_⟩
    have args := inner.reads k (closing :: rest) (by omega) closes
    simp only [List.append_assoc, List.cons_append, List.nil_append, first]
    simp only [postfixes, kind_bind, look_cons, opens, advance_bind_cons]
    rw [bind_of_ok args, expect_bind_cons closes]
    rfl
  | @Postfixed.member us _ point field target isPoint isName, n, rest, room, _ => by
    simp only [List.length_append, List.length_cons, List.length_nil] at room ⊢
    obtain ⟨m, used, first⟩ := target.reaches n (point :: field :: rest) (by omega) (by simp [isPoint])
    obtain ⟨k, rfl⟩ : ∃ k, m = k + 1 := ⟨m - 1, by omega⟩
    refine ⟨k, by omega, ?_⟩
    simp only [List.append_assoc, List.cons_append, List.nil_append, first]
    simp only [postfixes, kind_bind, look_cons, isPoint, advance_bind_cons, name_bind_cons isName]
termination_by structural derived => derived

theorem Primary.reads {ts : List Lexeme} {e : Expr} : Primary ts e →
    ∀ (n : Nat) (rest : List Lexeme), 16 * ts.length ≤ n + 8 → look rest ≠ .lbrace →
      Parser.primary n (ts ++ rest) = .ok (e, rest)
  | .leaf isLeaf, n, rest, room, brace => by
    simp only [List.length_cons, List.length_nil] at room
    obtain ⟨k, rfl⟩ : ∃ k, n = k + 1 := ⟨n - 1, by omega⟩
    exact primary_leaf isLeaf k (fun _ => brace)
  | @Primary.group us _ opening closing opens inner closes, n, rest, room, _ => by
    simp only [List.length_append, List.length_cons, List.length_nil] at room
    obtain ⟨k, rfl⟩ : ∃ k, n = k + 1 := ⟨n - 1, by omega⟩
    have read : opening.toToken.kind = opening.kind := rfl
    have room' : 16 * us.length ≤ k + 6 := by omega
    have ended : EndedAt 0 (closing :: rest) := .of_kind (look_cons _ _) (by simp [closes]) 0
    have whole := read_of_reached room' ended (inner.reaches 0 k _ (Nat.le_refl 0) room' ended)
    simp only [List.cons_append, List.append_assoc, List.nil_append, Parser.primary, current_bind_cons, read, opens,
      advance_bind_cons]
    rw [bind_of_ok whole, expect_bind_cons closes]
    rfl
  | @Primary.literal name opening closing us _ isName opens inner closes, n, rest, room, _ => by
    simp only [List.length_append, List.length_cons, List.length_nil] at room
    obtain ⟨k, rfl⟩ : ∃ k, n = k + 1 := ⟨n - 1, by omega⟩
    have read : name.toToken.kind = name.kind := rfl
    have fields := inner.reads k (closing :: rest) (by omega) closes
    simp only [List.cons_append, List.append_assoc, List.nil_append, Parser.primary, current_bind_cons, read, isName,
      advance_bind_cons, at_bind (show look (opening :: _) = .lbrace from opens), if_true]
    rw [bind_of_ok fields, expect_bind_cons closes]
    rfl
termination_by structural derived => derived

theorem Arguments.reads {ts : List Lexeme} {es : List Expr} : Arguments ts es →
    ∀ (n : Nat) (rest : List Lexeme), 16 * ts.length + 1 ≤ n → look rest = .rparen →
      Parser.arguments n (ts ++ rest) = .ok (es, rest)
  | .none, n, rest, room, atEnd => by
    obtain ⟨k, rfl⟩ : ∃ k, n = k + 1 := ⟨n - 1, by omega⟩
    rw [List.nil_append, Parser.arguments, at_bind atEnd]
    rfl
  | .last arg, n, rest, room, atEnd => by
    obtain ⟨k, rfl⟩ : ∃ k, n = k + 1 := ⟨n - 1, by omega⟩
    have room' : 16 * ts.length ≤ k + 6 := by omega
    have ended : EndedAt 0 rest := .of_kind atEnd (by simp) 0
    have read := read_of_reached room' ended (arg.reaches 0 k _ (Nat.le_refl 0) room' ended)
    rw [Parser.arguments, notAt_bind (arg.look_ne rfl rest)]
    simp only [Bool.false_eq_true, if_false]
    rw [bind_of_ok read, notAt_bind (by simp [atEnd])]
    rfl
  | @Arguments.more us vs _ _ comma arg isComma others, n, rest, room, atEnd => by
    simp only [List.length_append, List.length_cons] at room
    obtain ⟨k, rfl⟩ : ∃ k, n = k + 1 := ⟨n - 1, by omega⟩
    have room' : 16 * us.length ≤ k + 6 := by omega
    have ended : EndedAt 0 (comma :: (vs ++ rest)) := .of_kind (look_cons _ _) (by simp [isComma]) 0
    have read := read_of_reached room' ended (arg.reaches 0 k _ (Nat.le_refl 0) room' ended)
    rw [List.append_assoc, List.cons_append, Parser.arguments, notAt_bind (arg.look_ne rfl _)]
    simp only [Bool.false_eq_true, if_false]
    rw [bind_of_ok read, at_bind (show look (comma :: _) = .comma from isComma)]
    simp only [if_true, advance_bind_cons]
    rw [bind_of_ok (others.reads k rest (by omega) atEnd)]
    rfl
termination_by structural derived => derived

theorem Inits.reads {ts : List Lexeme} {fs : List FieldInit} : Inits ts fs →
    ∀ (n : Nat) (rest : List Lexeme), 16 * ts.length + 1 ≤ n → look rest = .rbrace →
      Parser.fieldInits n (ts ++ rest) = .ok (fs, rest)
  | .none, n, rest, room, atEnd => by
    obtain ⟨k, rfl⟩ : ∃ k, n = k + 1 := ⟨n - 1, by omega⟩
    rw [List.nil_append, fieldInits, at_bind atEnd]
    rfl
  | @Inits.last name colon us _ isName isColon value, n, rest, room, atEnd => by
    simp only [List.length_cons] at room
    obtain ⟨k, rfl⟩ : ∃ k, n = k + 1 := ⟨n - 1, by omega⟩
    have room' : 16 * us.length ≤ k + 6 := by omega
    have ended : EndedAt 0 rest := .of_kind atEnd (by simp) 0
    have read := read_of_reached room' ended (value.reaches 0 k _ (Nat.le_refl 0) room' ended)
    rw [List.cons_append, List.cons_append, fieldInits, notAt_bind (by simp [isName])]
    simp only [Bool.false_eq_true, if_false, name_bind_cons isName, expect_bind_cons isColon]
    rw [bind_of_ok read, notAt_bind (by simp [atEnd])]
    rfl
  | @Inits.more name colon comma us vs _ _ isName isColon value isComma others, n, rest, room, atEnd => by
    simp only [List.length_append, List.length_cons] at room
    obtain ⟨k, rfl⟩ : ∃ k, n = k + 1 := ⟨n - 1, by omega⟩
    have room' : 16 * us.length ≤ k + 6 := by omega
    have ended : EndedAt 0 (comma :: (vs ++ rest)) := .of_kind (look_cons _ _) (by simp [isComma]) 0
    have read := read_of_reached room' ended (value.reaches 0 k _ (Nat.le_refl 0) room' ended)
    simp only [List.cons_append, List.append_assoc]
    rw [fieldInits, notAt_bind (by simp [isName])]
    simp only [Bool.false_eq_true, if_false, name_bind_cons isName, expect_bind_cons isColon]
    rw [bind_of_ok read, at_bind (show look (comma :: _) = .comma from isComma)]
    simp only [if_true, advance_bind_cons]
    rw [bind_of_ok (others.reads k rest (by omega) atEnd)]
    rfl
termination_by structural derived => derived

end

theorem Expression.reads {ts : List Lexeme} {e : Expr} (derived : Expression 0 ts e) (n : Nat) (rest : List Lexeme)
    (room : 16 * ts.length ≤ n + 6) (ended : EndedAt 0 rest) : Parser.expr n 0 (ts ++ rest) = .ok (e, rest) :=
  read_of_reached room ended (derived.reaches 0 n rest (Nat.le_refl 0) room ended)

/-! ## Statements -/

/-- A kind with which a statement can start. -/
def startsStmt : Kind → Bool
  | .kwIf | .kwReturn | .kwBreak | .kwLoop | .kwLet | .underscore => true
  | k => startsExpr k

theorem startsStmt_of_expr {k : Kind} (starts : startsExpr k = true) : startsStmt k = true := by
  cases k <;> first | rfl | cases starts

theorem Statement.first {nearest closed opened : Bool} {ts : List Lexeme} {s : Stmt}
    (derived : Statement nearest ts s closed opened) : ∃ l us, ts = l :: us ∧ startsStmt l.kind = true := by
  cases derived with
  | only isIf => exact ⟨_, _, rfl, by rw [isIf]; rfl⟩
  | both isIf => exact ⟨_, _, rfl, by rw [isIf]; rfl⟩
  | chain isIf => exact ⟨_, _, rfl, by rw [isIf]; rfl⟩
  | bare isReturn => exact ⟨_, _, rfl, by rw [isReturn]; rfl⟩
  | value isReturn => exact ⟨_, _, rfl, by rw [isReturn]; rfl⟩
  | leave isBreak => exact ⟨_, _, rfl, by rw [isBreak]; rfl⟩
  | loop isLoop => exact ⟨_, _, rfl, by rw [isLoop]; rfl⟩
  | bind isLet => exact ⟨_, _, rfl, by rw [isLet]; rfl⟩
  | empty isUnderscore => exact ⟨_, _, rfl, by rw [isUnderscore]; rfl⟩
  | expr inner =>
    obtain ⟨l, us, rfl, starts⟩ := inner.first
    exact ⟨l, us, rfl, startsStmt_of_expr starts⟩

theorem Statement.look_ne {nearest closed opened : Bool} {ts : List Lexeme} {s : Stmt}
    (derived : Statement nearest ts s closed opened) {k : Kind} (other : startsStmt k = false)
    (rest : List Lexeme) : look (ts ++ rest) ≠ k := by
  obtain ⟨l, us, rfl, starts⟩ := derived.first
  intro same
  have kind : l.kind = k := same
  rw [kind, other] at starts
  cases starts

theorem Lines.look_ne {nearest : Bool} {ts : List Lexeme} {ss : List Stmt} (derived : Lines nearest ts ss)
    {k : Kind} (other : startsStmt k = false) (rest : List Lexeme) : look (ts ++ rest) ≠ k := by
  cases derived with
  | last inner => rw [List.append_assoc]; exact inner.look_ne other _
  | more inner => rw [List.append_assoc]; exact inner.look_ne other _

theorem Lines.length_pos {nearest : Bool} {ts : List Lexeme} {ss : List Stmt} (derived : Lines nearest ts ss) :
    0 < ts.length := by
  cases derived with
  | last inner =>
    obtain ⟨l, us, rfl, _⟩ := inner.first
    simp
  | more inner =>
    obtain ⟨l, us, rfl, _⟩ := inner.first
    simp

/-- An `if` is recognised by its first lexeme. -/
theorem Statement.look_cond {nearest closed opened : Bool} {ts : List Lexeme} {span : Span} {test : Expr}
    {yes : Body} {no : Option Body} (derived : Statement nearest ts (.cond span test yes no) closed opened)
    (rest : List Lexeme) : look (ts ++ rest) = .kwIf := by
  cases derived with
  | only isIf => exact isIf
  | both isIf => exact isIf
  | chain isIf => exact isIf

theorem stmt_at_if {n : Nat} {ls : List Lexeme} (atIf : look ls = .kwIf) :
    Parser.stmt (n + 1) ls = conditional n ls := by
  obtain ⟨head, tail, rfl, isIf⟩ := cons_of_look atIf (by decide)
  have read : head.toToken.kind = head.kind := rfl
  simp only [Parser.stmt, current_bind_cons, read, isIf]

theorem stmt_at_expr {n : Nat} {l : Lexeme} {ls : List Lexeme} (starts : startsExpr l.kind = true) :
    Parser.stmt (n + 1) (l :: ls) =
      (Parser.expr n 0 >>= fun x => pure (Stmt.expr x.span x, false)) (l :: ls) := by
  have read : l.toToken.kind = l.kind := rfl
  simp only [Parser.stmt, current_bind_cons, read]
  generalize l.kind = k at starts
  cases k <;> first | rfl | cases starts

/-- What comes after a statement: the end of its line unless it has taken that, and no `else` that
    it could still take. -/
structure After (closed opened : Bool) (rest : List Lexeme) : Prop where
  line : closed = false → endsReturn (look rest) = true
  shut : opened = true → look rest ≠ .kwElse

theorem After.ended {opened : Bool} {rest : List Lexeme} (after : After false opened rest) : EndedAt 0 rest :=
  .of_kind rfl (.inr (.inr (.inr (.inr (after.line rfl))))) 0

theorem After.of_separator {closed opened : Bool} {sep rest : List Lexeme} (ends : Separator closed sep)
    (noElse : look rest ≠ .kwElse) : After closed opened (sep ++ rest) := by
  cases ends with
  | closed => exact ⟨nofun, fun _ => noElse⟩
  | line isBreak => exact ⟨fun _ => by simp [isBreak, endsReturn], fun _ => by simp [isBreak]⟩

theorem After.of_else {closed opened : Bool} {other : Lexeme} {rest : List Lexeme} (isElse : other.kind = .kwElse)
    (shut : opened = false) : After closed opened (other :: rest) := by
  subst shut
  exact ⟨fun _ => by rw [look_cons, isElse]; rfl, nofun⟩

theorem After.of_last {closed opened : Bool} {sep rest : List Lexeme} (ends : LastSeparator closed sep)
    (atEnd : look rest = .dedent) : After closed opened (sep ++ rest) := by
  cases ends with
  | none => exact ⟨fun _ => by simp [atEnd, endsReturn], fun _ => by simp [atEnd]⟩
  | line isBreak => exact ⟨fun _ => by simp [isBreak, endsReturn], fun _ => by simp [isBreak]⟩

mutual

theorem Statement.reads {ts : List Lexeme} {s : Stmt} {closed opened : Bool} :
    Statement true ts s closed opened → ∀ (n : Nat) (rest : List Lexeme), 16 * ts.length ≤ n + 5 →
      After closed opened rest → Parser.stmt n (ts ++ rest) = .ok ((s, closed), rest)
  | @Statement.only _ head colon us bs test yes _ _ isIf cond isColon first, n, rest, room, after => by
    simp only [List.length_append, List.length_cons] at room
    obtain ⟨k, rfl⟩ : ∃ k, n = k + 2 := ⟨n - 2, by omega⟩
    have tested := cond.reads k (colon :: (bs ++ rest)) (by omega) (.of_kind (look_cons _ _) (by simp [isColon]) 0)
    have noElse : look rest ≠ .kwElse := after.shut rfl
    have body := first.reads k rest (by omega) ⟨after.line, fun _ => noElse⟩
    simp only [List.cons_append, List.append_assoc]
    rw [stmt_at_if (show look (head :: _) = .kwIf from isIf)]
    simp only [conditional, advance_bind_cons]
    rw [bind_of_ok tested, expect_bind_cons isColon, bind_of_ok body, notAt_bind noElse]
    rfl
  | @Statement.both _ head colon other colon' us bs cs test yes no _ _ _ _ isIf cond isColon first free isElse isColon'
      second, n, rest, room, after => by
    simp only [List.length_append, List.length_cons] at room
    obtain ⟨k, rfl⟩ : ∃ k, n = k + 2 := ⟨n - 2, by omega⟩
    have tested := cond.reads k (colon :: (bs ++ other :: colon' :: (cs ++ rest))) (by omega)
      (.of_kind (look_cons _ _) (by simp [isColon]) 0)
    have body := first.reads k (other :: colon' :: (cs ++ rest)) (by omega) (.of_else isElse (free rfl))
    have body' := second.reads k rest (by omega) after
    simp only [List.cons_append, List.append_assoc]
    rw [stmt_at_if (show look (head :: _) = .kwIf from isIf)]
    simp only [conditional, advance_bind_cons]
    rw [bind_of_ok tested, expect_bind_cons isColon, bind_of_ok body,
      at_bind (show look (other :: _) = .kwElse from isElse)]
    simp only [if_true, advance_bind_cons, kind_bind, look_cons, isColon']
    rw [bind_of_ok body']
    rfl
  | @Statement.chain _ head colon other us bs cs test _ yes _ _ span _ _ _ _ isIf cond isColon first free isElse
      second, n, rest, room, after => by
    simp only [List.length_append, List.length_cons] at room
    obtain ⟨k, rfl⟩ : ∃ k, n = k + 2 := ⟨n - 2, by omega⟩
    have tested := cond.reads k (colon :: (bs ++ other :: (cs ++ rest))) (by omega)
      (.of_kind (look_cons _ _) (by simp [isColon]) 0)
    have body := first.reads k (other :: (cs ++ rest)) (by omega) (.of_else isElse (free rfl))
    have nested := second.reads (k + 1) rest (by omega) after
    rw [stmt_at_if (second.look_cond rest)] at nested
    simp only [List.cons_append, List.append_assoc]
    rw [stmt_at_if (show look (head :: _) = .kwIf from isIf)]
    simp only [conditional, advance_bind_cons]
    rw [bind_of_ok tested, expect_bind_cons isColon, bind_of_ok body,
      at_bind (show look (other :: _) = .kwElse from isElse)]
    simp only [if_true, advance_bind_cons, kind_bind, second.look_cond rest]
    rw [bind_of_ok nested]
    rfl
  | @Statement.bare _ head isReturn, n, rest, room, after => by
    simp only [List.length_cons, List.length_nil] at room
    obtain ⟨k, rfl⟩ : ∃ k, n = k + 1 := ⟨n - 1, by omega⟩
    have read : head.toToken.kind = head.kind := rfl
    simp only [List.cons_append, List.nil_append, Parser.stmt, current_bind_cons, read, isReturn, advance_bind_cons,
      kind_bind, after.line rfl, if_true]
    rfl
  | @Statement.value _ head us e isReturn inner, n, rest, room, after => by
    simp only [List.length_cons] at room
    obtain ⟨k, rfl⟩ : ∃ k, n = k + 1 := ⟨n - 1, by omega⟩
    have read : head.toToken.kind = head.kind := rfl
    have value := inner.reads k rest (by omega) after.ended
    have goesOn : endsReturn (look (us ++ rest)) = false := by
      obtain ⟨l, vs, rfl, starts⟩ := inner.first
      rw [List.cons_append, look_cons]
      generalize l.kind = kind at starts
      cases kind <;> first | rfl | cases starts
    simp only [List.cons_append, Parser.stmt, current_bind_cons, read, isReturn, advance_bind_cons, kind_bind, goesOn,
      Bool.false_eq_true, if_false]
    rw [bind_of_ok value]
    rfl
  | @Statement.leave _ head isBreak, n, rest, room, after => by
    simp only [List.length_cons, List.length_nil] at room
    obtain ⟨k, rfl⟩ : ∃ k, n = k + 1 := ⟨n - 1, by omega⟩
    have read : head.toToken.kind = head.kind := rfl
    simp only [List.cons_append, List.nil_append, Parser.stmt, current_bind_cons, read, isBreak, advance_bind_cons]
    rfl
  | @Statement.loop _ head colon bs body _ _ isLoop isColon inner, n, rest, room, after => by
    simp only [List.length_cons] at room
    obtain ⟨k, rfl⟩ : ∃ k, n = k + 1 := ⟨n - 1, by omega⟩
    have read : head.toToken.kind = head.kind := rfl
    have body := inner.reads k rest (by omega) after
    simp only [List.cons_append, Parser.stmt, current_bind_cons, read, isLoop, advance_bind_cons,
      expect_bind_cons isColon]
    rw [bind_of_ok body]
    rfl
  | @Statement.bind _ head name colon type sign us ref e isLet isName isColon isType isAssign inner, n, rest, room,
      after => by
    simp only [List.length_cons] at room
    obtain ⟨k, rfl⟩ : ∃ k, n = k + 1 := ⟨n - 1, by omega⟩
    have read : head.toToken.kind = head.kind := rfl
    have value := inner.reads k rest (by omega) after.ended
    simp only [List.cons_append, Parser.stmt, current_bind_cons, read, isLet, advance_bind_cons, name_bind_cons isName,
      expect_bind_cons isColon, type_bind_cons isType, expect_bind_cons isAssign]
    rw [bind_of_ok value]
    rfl
  | @Statement.empty _ head isUnderscore, n, rest, room, after => by
    simp only [List.length_cons, List.length_nil] at room
    obtain ⟨k, rfl⟩ : ∃ k, n = k + 1 := ⟨n - 1, by omega⟩
    have read : head.toToken.kind = head.kind := rfl
    simp only [List.cons_append, List.nil_append, Parser.stmt, current_bind_cons, read, isUnderscore,
      advance_bind_cons]
    rfl
  | .expr inner, n, rest, room, after => by
    obtain ⟨l, us, same, starts⟩ := inner.first
    have size : ts.length = us.length + 1 := by rw [same]; rfl
    obtain ⟨k, rfl⟩ : ∃ k, n = k + 1 := ⟨n - 1, by omega⟩
    have value := inner.reads k rest (by omega) after.ended
    rw [same, List.cons_append] at value ⊢
    rw [stmt_at_expr starts, bind_of_ok value]
    rfl
termination_by structural derived => derived

theorem Block.reads {ts : List Lexeme} {b : Body} {closed opened : Bool} :
    Block true ts b closed opened → ∀ (n : Nat) (rest : List Lexeme), 16 * ts.length ≤ n + 4 →
      After closed opened rest → Parser.body n (ts ++ rest) = .ok ((b, closed), rest)
  | .line inner, n, rest, room, after => by
    obtain ⟨l, us, same, starts⟩ := inner.first
    have size : ts.length = us.length + 1 := by rw [same]; rfl
    obtain ⟨k, rfl⟩ : ∃ k, n = k + 1 := ⟨n - 1, by omega⟩
    rw [Parser.body, notAt_bind (inner.look_ne rfl rest)]
    simp only [Bool.false_eq_true, if_false]
    rw [bind_of_ok (inner.reads k rest (by omega) after)]
    rfl
  | @Block.indented _ first second us ss isBreak isIndent inner, n, rest, room, after => by
    simp only [List.length_cons] at room
    obtain ⟨k, rfl⟩ : ∃ k, n = k + 1 := ⟨n - 1, by omega⟩
    rw [List.cons_append, List.cons_append, Parser.body, at_bind (show look (first :: _) = .newLine from isBreak)]
    simp only [if_true, advance_bind_cons, expect_bind_cons isIndent]
    rw [bind_of_ok (inner.reads k rest (by omega))]
    rfl
termination_by structural derived => derived

theorem Lines.reads {ts : List Lexeme} {ss : List Stmt} : Lines true ts ss →
    ∀ (n : Nat) (rest : List Lexeme), 16 * ts.length ≤ n + 5 → bodyStmts n (ts ++ rest) = .ok (ss, rest)
  | @Lines.last _ us sep s _ _ stop inner ends isDedent, n, rest, room => by
    simp only [List.length_append, List.length_cons, List.length_nil] at room
    obtain ⟨k, rfl⟩ : ∃ k, n = k + 1 := ⟨n - 1, by omega⟩
    have atEnd : look (stop :: rest) = .dedent := isDedent
    simp only [List.append_assoc, List.cons_append, List.nil_append, bodyStmts]
    rw [bind_of_ok (inner.reads k _ (by omega) (.of_last ends atEnd)), bind_of_ok (endOfStmt_last ends atEnd),
      at_bind atEnd]
    rfl
  | @Lines.more _ us sep vs s _ _ _ inner ends others, n, rest, room => by
    obtain ⟨l, us', same, _⟩ := inner.first
    have size : us.length = us'.length + 1 := by rw [same]; rfl
    simp only [List.length_append] at room
    obtain ⟨k, rfl⟩ : ∃ k, n = k + 1 := ⟨n - 1, by omega⟩
    have some := others.length_pos
    simp only [List.append_assoc, bodyStmts]
    rw [bind_of_ok (inner.reads k _ (by omega) (.of_separator ends (others.look_ne rfl rest))),
      bind_of_ok (endOfStmt_separator ends _), notAt_bind (others.look_ne rfl rest)]
    simp only [Bool.false_eq_true, if_false]
    rw [bind_of_ok (others.reads k rest (by omega))]
    rfl
termination_by structural derived => derived

end

/-! ## Declarations -/

theorem Field.length {ts : List Lexeme} {p : Param} : Field ts p → ts.length = 3
  | .mk _ _ _ => rfl

theorem Field.look_eq {ts : List Lexeme} {p : Param} (derived : Field ts p) (rest : List Lexeme) :
    look (ts ++ rest) = .ident := by
  obtain ⟨isName, _, _⟩ := derived
  exact isName

theorem Field.reads {ts : List Lexeme} {p : Param} (derived : Field ts p) (rest : List Lexeme) :
    field (ts ++ rest) = .ok (p, rest) :=
  field_ok_iff.mpr ⟨ts, rfl, derived⟩

theorem Params.look_eq {ts : List Lexeme} {ps : List Param} (derived : Params ts ps) (rest : List Lexeme) :
    look (ts ++ rest) = .ident := by
  cases derived with
  | last field => exact field.look_eq rest
  | more field => rw [List.append_assoc]; exact field.look_eq _

theorem Params.reads {ts : List Lexeme} {ps : List Param} (derived : Params ts ps) (n : Nat) (rest : List Lexeme)
    (room : ts.length ≤ n) (atEnd : look rest = .rparen) : params n (ts ++ rest) = .ok (ps, rest) := by
  induction derived generalizing n with
  | last field =>
    rw [field.length] at room
    obtain ⟨k, rfl⟩ : ∃ k, n = k + 1 := ⟨n - 1, by omega⟩
    rw [params, bind_of_ok (field.reads rest), notAt_bind (by simp [atEnd])]
    rfl
  | @more us vs _ _ comma field isComma _ ih =>
    simp only [List.length_append, List.length_cons, field.length] at room
    obtain ⟨k, rfl⟩ : ∃ k, n = k + 1 := ⟨n - 1, by omega⟩
    rw [List.append_assoc, List.cons_append, params, bind_of_ok (field.reads _),
      at_bind (show look (comma :: _) = .comma from isComma)]
    simp only [if_true, advance_bind_cons]
    rw [bind_of_ok (ih k (by omega))]
    rfl

theorem FieldLines.look_eq {ts : List Lexeme} {ps : List Param} (derived : FieldLines ts ps) (rest : List Lexeme) :
    look (ts ++ rest) = .ident := by
  cases derived with
  | last field => rw [List.append_assoc]; exact field.look_eq _
  | more field => rw [List.append_assoc]; exact field.look_eq _

theorem FieldLines.reads {ts : List Lexeme} {ps : List Param} (derived : FieldLines ts ps) (n : Nat)
    (rest : List Lexeme) (room : ts.length ≤ n) : fieldLines n (ts ++ rest) = .ok (ps, rest) := by
  induction derived generalizing n with
  | @last us sep _ stop field ends isDedent =>
    simp only [List.length_append, field.length] at room
    obtain ⟨k, rfl⟩ : ∃ k, n = k + 1 := ⟨n - 1, by omega⟩
    have atEnd : Parser.look (stop :: rest) = .dedent := isDedent
    simp only [List.append_assoc, List.cons_append, List.nil_append]
    rw [fieldLines, bind_of_ok (field.reads _), bind_of_ok (endOfStmt_last ends atEnd), at_bind atEnd]
    rfl
  | @more us sep vs _ _ field ends others ih =>
    simp only [List.length_append, field.length] at room
    obtain ⟨k, rfl⟩ : ∃ k, n = k + 1 := ⟨n - 1, by omega⟩
    simp only [List.append_assoc]
    rw [fieldLines, bind_of_ok (field.reads _), bind_of_ok (endOfStmt_separator ends _),
      notAt_bind (by simp [others.look_eq rest])]
    simp only [Bool.false_eq_true, if_false]
    rw [bind_of_ok (ih k (by omega))]
    rfl

theorem BracedFields.reads {ts : List Lexeme} {ps : List Param} (derived : BracedFields ts ps) (n : Nat)
    (rest : List Lexeme) (room : ts.length + 1 ≤ n) (atEnd : look rest = .rbrace) :
    bracedFields n (ts ++ rest) = .ok (ps, rest) := by
  induction derived generalizing n with
  | none =>
    obtain ⟨k, rfl⟩ : ∃ k, n = k + 1 := ⟨n - 1, by omega⟩
    rw [List.nil_append, bracedFields, at_bind atEnd]
    rfl
  | last field =>
    obtain ⟨k, rfl⟩ : ∃ k, n = k + 1 := ⟨n - 1, by omega⟩
    rw [bracedFields, notAt_bind (by simp [field.look_eq rest])]
    simp only [Bool.false_eq_true, if_false]
    rw [bind_of_ok (field.reads rest), notAt_bind (by simp [atEnd])]
    rfl
  | @more us vs _ _ comma field isComma _ ih =>
    simp only [List.length_append, List.length_cons] at room
    obtain ⟨k, rfl⟩ : ∃ k, n = k + 1 := ⟨n - 1, by omega⟩
    rw [List.append_assoc, List.cons_append, bracedFields, notAt_bind (by simp [field.look_eq _])]
    simp only [Bool.false_eq_true, if_false]
    rw [bind_of_ok (field.reads _), at_bind (show look (comma :: _) = .comma from isComma)]
    simp only [if_true, advance_bind_cons]
    rw [bind_of_ok (ih k (by omega))]
    rfl

theorem Declaration.reads {ts : List Lexeme} {i : Item} {closed : Bool} (derived : Declaration true ts i closed)
    (n : Nat) (rest : List Lexeme) (room : 16 * ts.length ≤ n) (after : After closed true rest) :
    item n (ts ++ rest) = .ok ((i, closed), rest) := by
  cases derived with
  | @fn head name opening closing arrow type colon ps bs params ref body _ opened isFun isName opens fields closes
      isArrow isType isColon inner =>
    simp only [List.length_append, List.length_cons] at room
    have block := inner.reads n rest (by omega) ⟨after.line, fun _ => after.shut rfl⟩
    simp only [List.cons_append, List.append_assoc, item, kind_bind, look_cons, isFun, fnItem, advance_bind_cons,
      name_bind_cons isName, expect_bind_cons opens]
    cases fields with
    | none =>
      rw [List.nil_append, at_bind (show look (closing :: _) = .rparen from closes)]
      simp only [if_true, pure_bind_apply, expect_bind_cons closes, expect_bind_cons isArrow, type_bind_cons isType,
        expect_bind_cons isColon]
      rw [bind_of_ok block]
      rfl
    | some list =>
      have listed := list.reads n (closing :: arrow :: type :: colon :: (bs ++ rest)) (by omega) closes
      rw [notAt_bind (by simp [list.look_eq])]
      simp only [Bool.false_eq_true, if_false]
      rw [bind_of_ok listed]
      simp only [expect_bind_cons closes, expect_bind_cons isArrow, type_bind_cons isType, expect_bind_cons isColon]
      rw [bind_of_ok block]
      rfl
  | @indented head name colon first second us params isType isName isColon isBreak isIndent fields =>
    simp only [List.length_cons] at room
    simp only [List.cons_append, item, kind_bind, look_cons, isType, structItem, advance_bind_cons,
      name_bind_cons isName, isColon, expect_bind_cons isBreak, expect_bind_cons isIndent]
    rw [bind_of_ok (fields.reads n rest (by omega))]
    rfl
  | @braced head name opening closing us params isType isName opens fields closes =>
    simp only [List.length_append, List.length_cons, List.length_nil] at room
    simp only [List.cons_append, List.append_assoc, List.nil_append, item, kind_bind, look_cons, isType, structItem,
      advance_bind_cons, name_bind_cons isName, opens]
    rw [bind_of_ok (fields.reads n (closing :: rest) (by omega) closes), expect_bind_cons closes]
    rfl

theorem Declaration.length_pos {nearest closed : Bool} {ts : List Lexeme} {i : Item}
    (derived : Declaration nearest ts i closed) : 0 < ts.length := by
  cases derived <;> simp

theorem Declarations.look_ne {nearest : Bool} {ts rest : List Lexeme} {is : List Item}
    (derived : Declarations nearest ts is) (atEnd : look rest = .eof) : look (ts ++ rest) ≠ .kwElse := by
  cases derived with
  | none => simp [atEnd]
  | skip isBreak => simp [isBreak]
  | more inner =>
    rw [List.append_assoc]
    obtain starts | starts := look_declaration inner _ <;> rw [starts] <;> decide

theorem Declarations.reads {ts : List Lexeme} {is : List Item} (derived : Declarations true ts is) (n : Nat)
    (rest : List Lexeme) (room : 16 * ts.length + 1 ≤ n) (atEnd : look rest = .eof) :
    items false n (ts ++ rest) = .ok (is, rest) := by
  induction derived generalizing n with
  | none =>
    obtain ⟨k, rfl⟩ : ∃ k, n = k + 1 := ⟨n - 1, by omega⟩
    simp only [List.nil_append, items, kind_bind, atEnd]
    rfl
  | @skip l us _ isBreak _ ih =>
    simp only [List.length_cons] at room
    obtain ⟨k, rfl⟩ : ∃ k, n = k + 1 := ⟨n - 1, by omega⟩
    simp only [List.cons_append, items, kind_bind, look_cons, isBreak, advance_bind_cons]
    exact ih k (by omega)
  | @more us sep vs i _ closed inner ends others ih =>
    have some := inner.length_pos
    simp only [List.length_append] at room
    obtain ⟨k, rfl⟩ : ∃ k, n = k + 1 := ⟨n - 1, by omega⟩
    have after : After closed true (sep ++ (vs ++ rest)) := by
      obtain separator | ⟨rfl, rfl⟩ := ends
      · exact .of_separator separator (others.look_ne atEnd)
      · exact ⟨fun _ => by simp [atEnd, endsReturn], fun _ => by simp [atEnd]⟩
    have ended : endOfItem closed (sep ++ (vs ++ rest)) = .ok ((), vs ++ rest) := by
      obtain separator | ⟨rfl, rfl⟩ := ends
      · exact endOfItem_separator separator _
      · exact endOfItem_atEnd atEnd
    have first := inner.reads k (sep ++ (vs ++ rest)) (by omega) after
    have second := ih k (by omega)
    simp only [List.append_assoc, items, kind_bind]
    obtain starts | starts := look_declaration inner (sep ++ (vs ++ rest)) <;>
      simp only [starts, Bool.false_eq_true, if_false] <;>
      rw [bind_of_ok first, bind_of_ok ended, bind_of_ok second] <;> rfl

end Grammar

/-- The lexemes of a file in the grammar are parsed to its tree, whatever stands behind its end. -/
theorem parse_complete {ls post : List Lexeme} {stop : Lexeme} {f : File}
    (derived : Grammar.Source true (ls ++ [stop]) f) : parse (ls ++ stop :: post) = .ok f := by
  generalize whole : ls ++ [stop] = ts at derived
  obtain @⟨us, is, stop', inner, ends⟩ := derived
  obtain ⟨rfl, same⟩ := List.append_inj' whole rfl
  cases same
  have room : 16 * ls.length + 1 ≤ depthBound (ls ++ stop :: post).length := by
    simp only [depthBound, List.length_append]
    omega
  have read := inner.reads _ (stop :: post) room ends
  have first : (ls ++ stop :: post).head? = (ls ++ [stop]).head? := by cases ls <;> rfl
  simp only [parse, read, first]
  rfl

end PineLang
