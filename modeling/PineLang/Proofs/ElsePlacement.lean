import PineLang.Proofs.CStmts

/-!
An `else` that is read belongs to the nearest `if` that has none, whatever the tokens are. So a printed statement keeps
its conditions exactly if none of its `else`s stands behind a statement that takes it.
-/
namespace PineLang.C

section
variable {structs : List String} {n : Nat} {ts rest : List CToken}

/-! ## What is read -/

/-- A statement of a text whose `else`s are with the nearest `if`s, also where one follows the statement. -/
structure Nearest (s : CStmt) (rest : List CToken) : Prop where
  faithful : s.shape.isFaithful = true
  ends : s.shape.hangs = true → past (.word "else") rest = none

theorem Nearest.plain {s : CStmt} (plain : s.shape = .plain) : Nearest s rest where
  faithful := by rw [plain, Shape.isFaithful]
  ends hangs := by rw [plain] at hangs; cases hangs

variable (structs n) in
/-- What is read with a bound on the steps has its `else`s with the nearest `if`s. -/
structure ReadsNearest : Prop where
  stmt : ∀ ts s rest, readStmt structs n ts = some (s, rest) → Nearest s rest
  item : ∀ ts s rest, readItem structs n ts = some (s, rest) → s.shape.isFaithful = true
  items : ∀ ts ss rest, readItems structs n ts = some (ss, rest) → areFaithful (shapes ss) = true

theorem readStmt_nearest (inner : ReadsNearest structs n) {s : CStmt} (read : readStmt structs (n + 1) ts = some (s, rest)) :
    Nearest s rest := by
  cases ts with
  | nil => cases read
  | cons t ts =>
    rw [readStmt] at read
    cases lead : leadOf t with
    | empty =>
      simp only [lead, Option.some.injEq, Prod.mk.injEq] at read
      obtain ⟨rfl, rfl⟩ := read
      exact .plain rfl
    | block =>
      simp only [lead, Option.map_eq_some_iff, Prod.mk.injEq, Prod.exists] at read
      obtain ⟨ss, _, readInner, rfl, rfl⟩ := read
      exact ⟨inner.items _ _ _ readInner, fun hangs => by cases hangs⟩
    | cond =>
      simp only [lead, Option.bind_eq_bind, Option.bind_eq_some_iff, Prod.exists] at read
      obtain ⟨test, afterTest, -, yes, afterYes, readYes, read⟩ := read
      have first := inner.stmt _ _ _ readYes
      cases isElse : past (.word "else") afterYes with
      | none =>
        simp only [isElse, Option.some.injEq, Prod.mk.injEq] at read
        obtain ⟨rfl, rfl⟩ := read
        exact ⟨first.faithful, fun _ => isElse⟩
      | some more =>
        simp only [isElse, Option.bind_eq_some_iff, Option.some.injEq, Prod.mk.injEq, Prod.exists] at read
        obtain ⟨no, _, readNo, rfl, rfl⟩ := read
        have other := inner.stmt _ _ _ readNo
        -- a first branch that hangs would have taken the `else`
        have free : yes.shape.hangs = false := by
          by_contra hangs
          have noElse := first.ends (Bool.eq_true_of_not_eq_false hangs)
          rw [isElse] at noElse
          cases noElse
        refine ⟨?_, other.ends⟩
        rw [CStmt.shape, Shape.isFaithful, free, first.faithful, other.faithful]
        rfl
    | loop =>
      simp only [lead, Option.bind_eq_bind, Option.bind_eq_some_iff, Option.some.injEq, Prod.mk.injEq, Prod.exists] at read
      obtain ⟨test, afterTest, -, body, _, readBody, rfl, rfl⟩ := read
      have looped := inner.stmt _ _ _ readBody
      exact ⟨looped.faithful, looped.ends⟩
    | ret =>
      simp only [lead] at read
      split at read
      · simp only [Option.some.injEq, Prod.mk.injEq] at read
        obtain ⟨rfl, rfl⟩ := read
        exact .plain rfl
      · simp only [Option.map_eq_some_iff, Prod.mk.injEq, Prod.exists] at read
        obtain ⟨x, _, -, rfl, rfl⟩ := read
        exact .plain rfl
    | leave | again =>
      simp only [lead, Option.map_eq_some_iff, Prod.mk.injEq] at read
      obtain ⟨_, -, rfl, rfl⟩ := read
      exact .plain rfl
    | other =>
      simp only [lead, Option.map_eq_some_iff, Prod.mk.injEq, Prod.exists] at read
      obtain ⟨x, _, -, rfl, rfl⟩ := read
      exact .plain rfl

theorem readItem_faithful (inner : ReadsNearest structs n) {s : CStmt} (read : readItem structs (n + 1) ts = some (s, rest)) :
    s.shape.isFaithful = true := by
  rw [readItem] at read
  split at read
  · simp only [Option.bind_eq_bind, Option.bind_eq_some_iff, Option.some.injEq, Prod.mk.injEq, Prod.exists] at read
    obtain ⟨p, _, -, _, -, rfl, rfl⟩ := read
    rfl
  · exact (inner.stmt _ _ _ read).faithful

theorem readItems_faithful (inner : ReadsNearest structs n) {ss : List CStmt}
    (read : readItems structs (n + 1) ts = some (ss, rest)) : areFaithful (shapes ss) = true := by
  rw [readItems] at read
  split at read
  · simp only [Option.some.injEq, Prod.mk.injEq] at read
    obtain ⟨rfl, rfl⟩ := read
    rfl
  · simp only [Option.bind_eq_bind, Option.bind_eq_some_iff, Option.some.injEq, Prod.mk.injEq, Prod.exists] at read
    obtain ⟨s, _, readFirst, ss, _, readRest, rfl, rfl⟩ := read
    rw [shapes, areFaithful, inner.item _ _ _ readFirst, inner.items _ _ _ readRest]
    rfl

theorem reads_nearest (structs : List String) (n : Nat) : ReadsNearest structs n := by
  induction n with
  | zero => constructor <;> (intro _ _ _ read; cases read)
  | succ n ih =>
    exact ⟨fun _ _ _ => readStmt_nearest ih, fun _ _ _ => readItem_faithful ih, fun _ _ _ => readItems_faithful ih⟩

/-! ## Statements that keep their conditions -/

/-- The statement of a text. -/
def readStatement (structs : List String) (text : Bytes) : Option CStmt := do
  let ts ← tokens text
  match readStmt structs (8 * ts.length) ts with
  | some (s, []) => some s
  | _ => none

theorem Stands.statement {text : Bytes} {s : CStmt} (stands : Stands structs text ts s) : readStatement structs text = some s := by
  have read := stands.reads (8 * ts.length) [] (fun _ => rfl) (Nat.le_succ _)
  rw [List.append_nil] at read
  simp [readStatement, stands.spells.whole, read]

theorem readStatement_faithful {text : Bytes} {s : CStmt} (read : readStatement structs text = some s) :
    s.shape.isFaithful = true := by
  rw [readStatement, Option.bind_eq_bind, Option.bind_eq_some_iff] at read
  obtain ⟨ts, -, read⟩ := read
  split at read
  · rename_i statement
    obtain rfl := Option.some.inj read
    exact ((reads_nearest structs _).stmt _ _ _ statement).faithful
  · cases read

/-- A statement is read back with its conditions as they were exactly if no `else` in it stands behind a statement that
ends in an `if` without one. -/
theorem else_kept_iff (known : AreStructs structs) {s s' : CStmt} (written : s.Written structs s') (depth : Nat) :
    (readStatement structs (s.text false depth)).map CStmt.shape = some s.shape ↔ s.shape.isFaithful = true := by
  constructor
  · intro kept
    obtain ⟨read, found, same⟩ := Option.map_eq_some_iff.mp kept
    rw [← same]
    exact readStatement_faithful found
  · intro faithful
    obtain ⟨ts, stands⟩ := written.read known faithful depth
    rw [stands.statement, Option.map_some, written.shape_eq]

/-- `if (a) return; else continue;` -/
def bareBranches : CStmt := .cond (.ident "a") (.ret none) (some .continue)

theorem else_kept_bare : AreStructs [] ∧ bareBranches.Written [] bareBranches ∧
    (readStatement [] (bareBranches.text false 0)).map CStmt.shape = some bareBranches.shape := by
  have known : AreStructs [] := ⟨List.forall_mem_nil _, List.forall_mem_nil _, List.forall_mem_nil _⟩
  have test : (CExpr.ident "a").Readable [] := .ident (by decide) (by decide)
  obtain ⟨ts, alone⟩ := test.read known
  have written : bareBranches.Written [] bareBranches := .ifElse alone .ret .continue
  exact ⟨known, written, (else_kept_iff known written 0).mpr rfl⟩

/-- `if (a) if (b) return;` with an `else` that is the one of `a`. -/
def danglingElse : CStmt := .cond (.ident "a") (.cond (.ident "b") (.ret none) none) (some .continue)

/-- The `else` is read as the one of `b`. -/
theorem else_taken : danglingElse.text false 0 = utf8 "if (a)\n    if (b)\n        return;\nelse\n    continue;" ∧
    readStatement [] (danglingElse.text false 0) =
      some (.cond (.ident "a") (.cond (.ident "b") (.ret none) (some .continue)) none) ∧
    danglingElse.shape = .ifElse (.if .plain) .plain := by
  have spelled : tokens (danglingElse.text false 0) = some [.word "if", .punct .lparen, .word "a", .punct .rparen, .word "if",
      .punct .lparen, .word "b", .punct .rparen, .word "return", .punct .semicolon, .word "else", .word "continue",
      .punct .semicolon] := by decide +kernel
  refine ⟨?_, ?_, rfl⟩
  · simp only [utf8_eq]
    decide +kernel
  · rw [readStatement, spelled]
    rfl

end
end PineLang.C
