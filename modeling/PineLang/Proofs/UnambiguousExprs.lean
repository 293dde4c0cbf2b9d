import PineLang.Proofs.CExprs

/-!
# Expressions that C reads as they are meant

The text of an expression is tokenised and read by C's grammar (`readExpression`), which always gives what
`CExpr.reading` says (`readExpression_text`). That is the tree that was printed, a negative constant counting as a sign
before its magnitude (`CExpr.signed`), exactly if the expression is clear (`expression_kept_iff`): no minus sign meets
that of a float, no postfix operator stands behind `sizeof`, no cast is assigned to, and no constant is the least
integer, whose magnitude C has no signed constant for.
-/
namespace PineLang.C

/-! ## What an expression should be read as -/

mutual

/-- The expression with a sign before the magnitude of each negative constant, and with each type as its spelling names it. -/
def CExpr.signed : CExpr → CExpr
  | .const c => c.signed
  | .member x op f => .member x.signed op f
  | .call f args => .call f.signed (allSigned args)
  | .cast t x => .cast t.named x.signed
  | .unary op x => .unary op x.signed
  | .binary op x y => .binary op x.signed y.signed
  | .sizeOf t => .sizeOf t.named
  | .assign op x y => .assign op x.signed y.signed
  | .ident n => .ident n
  | .type t => .type t
  | .missing => .missing
termination_by structural x => x

/-- All expressions with signs before magnitudes. -/
def allSigned : List CExpr → List CExpr
  | [] => []
  | x :: xs => x.signed :: allSigned xs
termination_by structural xs => xs

end

mutual

/-- No minus sign meets that of a float, no postfix operator stands behind `sizeof`, no cast is assigned to, and no constant
    is the least integer. -/
def CExpr.isClear : CExpr → Bool
  | .ident _ | .sizeOf _ => true
  | .const c => c != .int Int64.minValue
  | .member x _ _ => !x.isSizeOf && x.isClear
  | .call f args => !f.isSizeOf && (f.isClear && areClear args)
  | .cast _ x => x.isClear
  | .unary op x => !(op.isPost && x.isSizeOf) && (!x.merges op && x.isClear)
  | .binary op x y => !(op == .index && x.isSizeOf) && (x.isClear && y.isClear)
  | .assign _ x y => !x.isCast && (x.isClear && y.isClear)
  | .type _ | .missing => false
termination_by structural x => x

/-- All expressions are clear. -/
def areClear : List CExpr → Bool
  | [] => true
  | x :: xs => x.isClear && areClear xs
termination_by structural xs => xs

end

section
variable {x y : CExpr}

theorem map_signed {f : CExpr → CExpr} (injective : ∀ {y z}, f y = f z → y = z) {o : Option CExpr} :
    o.map f = some (f x.signed) ↔ o = some x.signed := by
  constructor
  · intro same
    obtain ⟨y, read, equal⟩ := Option.map_eq_some_iff.mp same
    rw [read, injective equal]
  · rintro rfl
    rfl

theorem bind_signed {β : Type} {f : CExpr → β → CExpr} (injective : ∀ {y z v w}, f y v = f z w → y = z ∧ v = w)
    {o : Option CExpr} {o' : Option β} {v : β} :
    (o.bind fun y => o'.map (f y)) = some (f x.signed v) ↔ o = some x.signed ∧ o' = some v := by
  constructor
  · intro same
    obtain ⟨y, read, rest⟩ := Option.bind_eq_some_iff.mp same
    obtain ⟨w, other, equal⟩ := Option.map_eq_some_iff.mp rest
    obtain ⟨rfl, rfl⟩ := injective equal
    exact ⟨read, other⟩
  · rintro ⟨rfl, rfl⟩
    rfl

theorem tight_signed : x.tight x.reading = some x.signed ↔ x.isSizeOf = false ∧ x.reading = some x.signed := by
  unfold CExpr.tight
  cases x.isSizeOf <;> simp

/-- Two signs that meet are not read as two. -/
theorem merged_signed {op : UnaryOp} (merges : x.merges op = true) :
    x.reading.map CExpr.merged ≠ some (.unary op x.signed) := by
  cases x with
  | const c =>
    cases c with
    | float v =>
      simp only [CExpr.merges, Const.isNegativeFloat, Bool.and_eq_true, beq_iff_eq] at merges
      obtain ⟨rfl, negative⟩ := merges
      rw [CExpr.reading, Const.reading, if_neg (by simp), Const.signed, if_pos negative]
      simp [CExpr.merged]
    | _ => simp [CExpr.merges, Const.isNegativeFloat] at merges
  | _ => cases merges

mutual

/-- An expression is read as it is meant exactly if it is clear. -/
theorem CExpr.reading_signed_iff : ∀ x : CExpr, x.reading = some x.signed ↔ x.isClear = true
  | .ident n => by simp [CExpr.reading, CExpr.signed, CExpr.isClear]
  | .sizeOf t => by simp [CExpr.reading, CExpr.signed, CExpr.isClear]
  | .type t => by simp [CExpr.reading, CExpr.isClear]
  | .missing => by simp [CExpr.reading, CExpr.isClear]
  | .const c => by
    rw [CExpr.reading, CExpr.signed, CExpr.isClear, Const.reading, bne_iff_ne]
    by_cases least : c = .int Int64.minValue
    · simp [least]
    · simp [least]
  | .member x op f => by
    have kept := CExpr.reading_signed_iff x
    rw [CExpr.reading, CExpr.signed, CExpr.isClear, map_signed (f := (.member · op f)) (by rintro y z ⟨⟩; rfl), tight_signed, kept]
    simp
  | .call f args => by
    have callee := CExpr.reading_signed_iff f
    have others := readings_signed_iff args
    rw [CExpr.reading, CExpr.signed, CExpr.isClear, bind_signed (f := CExpr.call) (by rintro y z v w ⟨⟩; exact ⟨rfl, rfl⟩),
      tight_signed, callee, others]
    simp [and_assoc]
  | .cast t x => by
    have kept := CExpr.reading_signed_iff x
    rw [CExpr.reading, CExpr.signed, CExpr.isClear, map_signed (f := .cast t.named) (by rintro y z ⟨⟩; rfl), kept]
  | .unary op x => by
    have kept := CExpr.reading_signed_iff x
    have injective : ∀ {y z}, CExpr.unary op y = .unary op z → y = z := by rintro y z ⟨⟩; rfl
    rw [CExpr.reading, CExpr.signed, CExpr.isClear]
    by_cases isPost : op.isPost = true
    · have apart : x.merges op = false := by
        cases x <;> first | rfl | (cases op <;> first | rfl | cases isPost)
      rw [if_pos isPost, map_signed injective, tight_signed, kept]
      simp [isPost, apart]
    · rw [if_neg isPost]
      by_cases merges : x.merges op = true
      · simp [isPost, merges, merged_signed merges]
      · rw [if_neg merges, map_signed injective, kept]
        simp [isPost, merges]
  | .binary op x y => by
    have left := CExpr.reading_signed_iff x
    have right := CExpr.reading_signed_iff y
    rw [CExpr.reading, CExpr.signed, CExpr.isClear, bind_signed (f := .binary op) (by rintro y z v w ⟨⟩; exact ⟨rfl, rfl⟩), right]
    by_cases index : (op == .index) = true
    · rw [if_pos index, tight_signed, left]
      simp [index, and_assoc]
    · rw [if_neg index, left]
      simp [index]
  | .assign op x y => by
    have left := CExpr.reading_signed_iff x
    have right := CExpr.reading_signed_iff y
    rw [CExpr.reading, CExpr.signed, CExpr.isClear]
    cases x.isCast with
    | true => simp
    | false =>
      rw [if_neg Bool.false_ne_true, bind_signed (f := .assign op) (by rintro y z v w ⟨⟩; exact ⟨rfl, rfl⟩), left, right]
      simp

theorem readings_signed_iff : ∀ xs : List CExpr, readings xs = some (allSigned xs) ↔ areClear xs = true
  | [] => by simp [readings, allSigned, areClear]
  | x :: xs => by
    have first := CExpr.reading_signed_iff x
    have others := readings_signed_iff xs
    rw [readings, allSigned, areClear, Bool.and_eq_true, ← first, ← others]
    constructor
    · intro same
      obtain ⟨y, read, rest⟩ := Option.bind_eq_some_iff.mp same
      obtain ⟨ys, more, equal⟩ := Option.map_eq_some_iff.mp rest
      obtain ⟨rfl, rfl⟩ := List.cons.inj equal
      exact ⟨read, more⟩
    · rintro ⟨read, more⟩
      rw [read, more]
      rfl

end

/-! ## Texts -/

/-- The expression that a text is, where a semicolon follows, by the longest tokens and the grammar of C. -/
def readExpression (structs : List String) (text : Bytes) : Option CExpr := do
  let ts ← tokens text
  let (x, rest) ← readFull structs (8 * ts.length + 4) (ts ++ [.punct .semicolon])
  if rest.isEmpty then some x else none

variable {structs : List String}

theorem Standing.expression {text : Bytes} {ts : List CToken} {o : Option CExpr} (standing : Standing structs text ts o) :
    readExpression structs text = o := by
  have read := standing.reads (8 * ts.length + 4) [.punct .semicolon] ⟨_, _, rfl, rfl⟩ (Nat.le_refl _)
  rw [readExpression, standing.spells.whole]
  cases o with
  | none =>
    have unread : readFull structs (8 * ts.length + 4) (ts ++ [CToken.punct .semicolon]) = none := by
      rw [readFull, Option.bind_eq_bind, Option.bind_eq_none_iff]
      rintro ⟨x, rest⟩ found
      have unclosed := (read (x, rest) found).unclosed.2.2.2
      show (past (.punct .semicolon) rest).bind _ = none
      rw [unclosed, Option.bind_none]
    simp [unread]
  | some x =>
    have read : readExpr structs (8 * ts.length + 4) (ts ++ [CToken.punct .semicolon]) = some (x, [.punct .semicolon]) := read
    simp [readFull, read]

/-- The text of a proper expression is read as its reading. -/
theorem readExpression_text (known : AreStructs structs) (proper : x.Proper structs) :
    readExpression structs (x.text .whole) = x.reading := by
  obtain ⟨ts, standing⟩ := (proper.read known).standing
  exact standing.expression

/-- A proper expression is read back, a sign before the magnitude of each negative constant, exactly if it is clear. -/
theorem expression_kept_iff (known : AreStructs structs) (proper : x.Proper structs) :
    readExpression structs (x.text .whole) = some x.signed ↔ x.isClear = true := by
  rw [readExpression_text known proper]
  exact x.reading_signed_iff

/-- `-(a[(-1)]++) / (int32_t)sizeof(double)` -/
def quotient : CExpr :=
  .binary .div (.unary .minus (.unary .postInc (.binary .index (.ident "a") (.const (.int (-1))))))
    (.cast .i32 (.sizeOf .f64))

theorem expression_kept_quotient : AreStructs [] ∧ quotient.Proper [] ∧ quotient.isClear = true ∧
    readExpression [] (quotient.text .whole) = some quotient.signed := by
  have known : AreStructs [] := ⟨List.forall_mem_nil _, List.forall_mem_nil _, List.forall_mem_nil _⟩
  have item : (CExpr.binary .index (.ident "a") (.const (.int (-1)))).Proper [] :=
    .binary (by decide) (.ident (by decide) (by decide)) (.const rfl)
  have proper : quotient.Proper [] :=
    .binary (by decide) (.unary (by decide) (.unary (by decide) item)) (.cast trivial (.sizeOf trivial))
  have clear : quotient.isClear = true := by decide
  exact ⟨known, proper, clear, (expression_kept_iff known proper).mpr clear⟩

/-- `--1.5` for `-(-1.5)` -/
def negatedFloat : CExpr := .unary .minus (.const (.float ⟨0xBFF8000000000000⟩))

/-- `sizeof(int32_t)->f` -/
def sizedMember : CExpr := .member (.sizeOf .i32) .indirect "f"

/-- `(int32_t)x = 1` -/
def assignedCast : CExpr := .assign .set (.cast .i32 (.ident "x")) (.const (.int 1))

/-- Two signs are read as one operator, and neither a member of a size nor an assignment to a cast is read at all. -/
theorem expression_mistaken :
    negatedFloat.Proper [] ∧ sizedMember.Proper [] ∧ assignedCast.Proper [] ∧
    readExpression [] (negatedFloat.text .whole) = some (.unary .preDec (.const (.float ⟨0x3FF8000000000000⟩))) ∧
    negatedFloat.signed = .unary .minus (.unary .minus (.const (.float ⟨0x3FF8000000000000⟩))) ∧
    readExpression [] (sizedMember.text .whole) = none ∧ readExpression [] (assignedCast.text .whole) = none := by
  have known : AreStructs [] := ⟨List.forall_mem_nil _, List.forall_mem_nil _, List.forall_mem_nil _⟩
  have negated : negatedFloat.Proper [] := .unary (by decide) (.const (by decide))
  have member : sizedMember.Proper [] := .member (.sizeOf trivial) (by decide) (by decide)
  have assigned : assignedCast.Proper [] :=
    .assign (by decide) (.cast trivial (.ident (by decide) (by decide))) (.const rfl)
  refine ⟨negated, member, assigned, ?_, rfl, ?_, ?_⟩
  · rw [readExpression_text known negated]
    rfl
  · rw [readExpression_text known member]
    rfl
  · rw [readExpression_text known assigned]
    rfl

end
end PineLang.C
