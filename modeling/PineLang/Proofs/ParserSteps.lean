import PineLang.Proofs.Grammar

/-!
What the small readers of the parser do to the lexemes: each either takes nothing, or takes exactly
the lexemes that the grammar allows in its place. Later proofs speak of the readers through these
statements only.
-/
namespace PineLang.Parser
open Grammar

/-- The kind of the first lexeme; nothing more reads as the end of the file. -/
def look (ls : List Lexeme) : Kind := (ls.head?.map Lexeme.kind).getD .eof

@[simp] theorem look_nil : look [] = .eof := rfl
@[simp] theorem look_cons (l : Lexeme) (ls : List Lexeme) : look (l :: ls) = l.kind := rfl

theorem cons_of_look {ls : List Lexeme} {k : Kind} (kind : look ls = k) (notEnd : k ≠ .eof) :
    ∃ l rest, ls = l :: rest ∧ l.kind = k := by
  cases ls with
  | nil => exact absurd kind.symm notEnd
  | cons l rest => exact ⟨l, rest, rfl, kind⟩

/-! ## Sequencing -/

variable {α β : Type}

theorem bind_ok_iff {p : Parser α} {f : α → Parser β} {ls : List Lexeme} {r : β × List Lexeme} :
    (p >>= f) ls = .ok r ↔ ∃ a mid, p ls = .ok (a, mid) ∧ f a mid = .ok r := by
  cases run : p ls with
  | error e => simp [bind, run]
  | ok out =>
    obtain ⟨a, mid⟩ := out
    simp only [bind, run]
    constructor
    · intro next
      exact ⟨a, mid, rfl, next⟩
    · rintro ⟨a', mid', same, next⟩
      cases same
      exact next

theorem bind_of_ok {p : Parser α} {ls mid : List Lexeme} {a : α} (run : p ls = .ok (a, mid)) (f : α → Parser β) :
    (p >>= f) ls = f a mid := by
  simp only [bind, run]

@[simp] theorem pure_apply (a : α) (ls : List Lexeme) : (pure a : Parser α) ls = .ok (a, ls) := rfl
@[simp] theorem pure_bind_apply (a : α) (f : α → Parser β) (ls : List Lexeme) :
    ((pure a : Parser α) >>= f) ls = f a ls := rfl
@[simp] theorem fail_apply (f : SyntaxFault) (ls : List Lexeme) : (fail f : Parser α) ls = .error ⟨f, ls⟩ := rfl
@[simp] theorem kind_bind (f : Kind → Parser β) (ls : List Lexeme) : (kind >>= f) ls = f (look ls) ls := by
  cases ls <;> rfl
@[simp] theorem isAt_bind (k : Kind) (f : Bool → Parser β) (ls : List Lexeme) :
    (isAt k >>= f) ls = f (look ls == k) ls := by
  cases ls <;> rfl
theorem at_bind {k : Kind} {ls : List Lexeme} (here : look ls = k) (f : Bool → Parser β) :
    (isAt k >>= f) ls = f true ls := by
  rw [isAt_bind, beq_iff_eq.mpr here]
theorem notAt_bind {k : Kind} {ls : List Lexeme} (other : look ls ≠ k) (f : Bool → Parser β) :
    (isAt k >>= f) ls = f false ls := by
  rw [isAt_bind, beq_eq_false_iff_ne.mpr other]
@[simp] theorem current_bind_cons (f : Token → Parser β) (l : Lexeme) (ls : List Lexeme) :
    (current >>= f) (l :: ls) = f l.toToken (l :: ls) := rfl
@[simp] theorem advance_cons (l : Lexeme) (ls : List Lexeme) : advance (l :: ls) = .ok (l.toToken, ls) := rfl
@[simp] theorem advance_bind_cons (f : Token → Parser β) (l : Lexeme) (ls : List Lexeme) :
    (advance >>= f) (l :: ls) = f l.toToken ls := rfl

theorem unexpected_ne_ok (words : List String) (ls : List Lexeme) (r : α × List Lexeme) :
    (unexpected words : Parser α) ls ≠ .ok r := by
  unfold unexpected
  split
  · simp
  · split <;> simp
  · simp

/-! ## Single tokens -/

theorem expect_ok_iff {k : Kind} (notEnd : k ≠ .eof) {ls rest : List Lexeme} {t : Token} :
    expect k ls = .ok (t, rest) ↔ ∃ l, ls = l :: rest ∧ l.kind = k ∧ l.toToken = t := by
  rw [expect, isAt_bind]
  by_cases here : look ls = k
  · obtain ⟨l, tail, rfl, isKind⟩ := cons_of_look here notEnd
    rw [look_cons, isKind, beq_self_eq_true, if_pos rfl, advance_cons]
    constructor
    · intro run
      cases run
      exact ⟨l, rfl, isKind, rfl⟩
    · rintro ⟨l', same, _, rfl⟩
      cases same
      rfl
  · simp only [beq_eq_false_iff_ne.mpr here, Bool.false_eq_true, if_false, unexpected_ne_ok, false_iff]
    rintro ⟨l, rfl, isKind, _⟩
    exact here isKind

theorem name_ok_iff {ls rest : List Lexeme} {x : String} {span : Span} :
    name ls = .ok ((x, span), rest) ↔ ∃ l, ls = l :: rest ∧ l.kind = .ident ∧ l.text = x ∧ l.span = span := by
  rw [name, isAt_bind]
  by_cases here : look ls = .ident
  · obtain ⟨l, tail, rfl, isKind⟩ := cons_of_look here (by decide)
    rw [look_cons, isKind, beq_self_eq_true, if_pos rfl, advance_bind_cons]
    constructor
    · intro run
      cases run
      exact ⟨l, rfl, isKind, rfl, rfl⟩
    · rintro ⟨l', same, _, rfl, rfl⟩
      cases same
      rfl
  · simp only [beq_eq_false_iff_ne.mpr here, Bool.false_eq_true, if_false, unexpected_ne_ok, false_iff]
    rintro ⟨l, rfl, isKind, _⟩
    exact here isKind

/-- A type is read from one lexeme, if that names one. -/
theorem type_cons (l : Lexeme) (tail : List Lexeme) :
    match annotation? l with
    | some ref => type (l :: tail) = .ok (ref, tail)
    | none => ∀ r, type (l :: tail) ≠ .ok r := by
  cases l with
  | error e earlier => intro r run; cases run
  | token t =>
    obtain ⟨kind, span, text, payload⟩ := t
    cases kind <;> first | rfl | (intro r run; cases run)

theorem type_ok_iff {ls rest : List Lexeme} {ref : TypeRef} :
    type ls = .ok (ref, rest) ↔ ∃ l, ls = l :: rest ∧ annotation? l = some ref := by
  cases ls with
  | nil => simp [type, current, bind, unexpected_ne_ok, Kind.primitive?]
  | cons l tail =>
    have run := type_cons l tail
    cases found : annotation? l with
    | none =>
      rw [found] at run
      simp only [run, List.cons.injEq, false_iff]
      rintro ⟨l', ⟨rfl, rfl⟩, other⟩
      rw [found] at other
      cases other
    | some ref' =>
      rw [found] at run
      simp only [run, Except.ok.injEq, Prod.mk.injEq, List.cons.injEq]
      constructor
      · rintro ⟨rfl, rfl⟩
        exact ⟨l, ⟨rfl, rfl⟩, found⟩
      · rintro ⟨l', ⟨rfl, rfl⟩, other⟩
        rw [found] at other
        exact ⟨Option.some.inj other, rfl⟩

/-! A token that is there is taken. -/

theorem expect_cons {k : Kind} {l : Lexeme} (isKind : l.kind = k) (rest : List Lexeme) :
    expect k (l :: rest) = .ok (l.toToken, rest) := by
  rw [expect, isAt_bind]
  simp [isKind]

theorem expect_bind_cons {k : Kind} {l : Lexeme} (isKind : l.kind = k) (f : Token → Parser β)
    (rest : List Lexeme) : (expect k >>= f) (l :: rest) = f l.toToken rest :=
  bind_of_ok (expect_cons isKind rest) f

theorem name_bind_cons {l : Lexeme} (isName : l.kind = .ident) (f : String × Span → Parser β)
    (rest : List Lexeme) : (name >>= f) (l :: rest) = f (l.text, l.span) rest :=
  bind_of_ok (name_ok_iff.mpr ⟨l, rfl, isName, rfl, rfl⟩) f

theorem type_bind_cons {l : Lexeme} {ref : TypeRef} (isType : annotation? l = some ref)
    (f : TypeRef → Parser β) (rest : List Lexeme) : (type >>= f) (l :: rest) = f ref rest :=
  bind_of_ok (type_ok_iff.2 ⟨l, rfl, isType⟩) f

theorem field_ok_iff {ls rest : List Lexeme} {p : Param} :
    field ls = .ok (p, rest) ↔ ∃ ts, ls = ts ++ rest ∧ Field ts p := by
  constructor
  · intro run
    simp only [field, bind_ok_iff, Prod.exists, name_ok_iff, type_ok_iff] at run
    obtain ⟨x, span, mid, ⟨l, rfl, isName, rfl, rfl⟩, _, mid', separated, ref, mid'', ⟨t, rfl, isType⟩, same⟩ := run
    obtain ⟨c, rfl, isColon, rfl⟩ := (expect_ok_iff (by decide)).mp separated
    cases same
    exact ⟨[l, c, t], rfl, .mk isName isColon isType⟩
  · rintro ⟨ts, rfl, derived⟩
    obtain @⟨l, c, t, ref, isName, isColon, isType⟩ := derived
    show field (l :: c :: t :: rest) = _
    simp only [field, name_bind_cons isName, expect_bind_cons isColon, type_bind_cons isType, pure_apply]

/-- A lexeme that is an expression by itself is taken as one; only a name can go on as a struct
    literal. -/
theorem primary_leaf {l : Lexeme} {e : Expr} (isLeaf : leaf? l = some e) (n : Nat) {tail : List Lexeme}
    (free : l.kind = .ident → look tail ≠ .lbrace) : primary (n + 1) (l :: tail) = .ok (e, tail) := by
  have read : l.toToken.kind = l.kind := rfl
  unfold leaf? at isLeaf
  split at isLeaf <;> cases isLeaf <;> next kind => simp [primary, read, kind, Lexeme.span, Lexeme.text, free]

/-! ## Ends of lines -/

theorem endOfStmt_sound {closed : Bool} {ls rest : List Lexeme} {u : Unit}
    (run : endOfStmt closed ls = .ok (u, rest)) :
    ∃ sep, ls = sep ++ rest ∧ (Separator closed sep ∨ sep = [] ∧ look rest = .dedent) := by
  cases closed with
  | true =>
    cases run
    exact ⟨[], rfl, .inl .closed⟩
  | false =>
    simp only [endOfStmt, Bool.false_eq_true, if_false, kind_bind] at run
    generalize here : look ls = k at run
    split at run
    · obtain ⟨l, tail, rfl, isBreak⟩ := cons_of_look here (by decide)
      cases run
      exact ⟨[l], rfl, .inl (.line isBreak)⟩
    · cases run
      exact ⟨[], rfl, .inr ⟨rfl, here⟩⟩
    · exact absurd run (unexpected_ne_ok _ _ _)

theorem endOfStmt_separator {closed : Bool} {sep : List Lexeme} (ends : Separator closed sep)
    (rest : List Lexeme) : endOfStmt closed (sep ++ rest) = .ok ((), rest) := by
  cases ends with
  | closed => rfl
  | line isBreak => simp [endOfStmt, isBreak]

theorem endOfStmt_last {closed : Bool} {sep rest : List Lexeme} (ends : LastSeparator closed sep)
    (atEnd : look rest = .dedent) : endOfStmt closed (sep ++ rest) = .ok ((), rest) := by
  cases ends with
  | none => cases closed <;> simp [endOfStmt, atEnd]
  | line isBreak => simp [endOfStmt, isBreak]

theorem endOfItem_sound {closed : Bool} {ls rest : List Lexeme} {u : Unit}
    (run : endOfItem closed ls = .ok (u, rest)) :
    ∃ sep, ls = sep ++ rest ∧
      (Separator closed sep ∨ sep = [] ∧ (look rest = .eof ∨ look rest = .dedent)) := by
  cases closed with
  | true =>
    cases run
    exact ⟨[], rfl, .inl .closed⟩
  | false =>
    simp only [endOfItem, Bool.false_eq_true, if_false, kind_bind] at run
    generalize here : look ls = k at run
    split at run
    · obtain ⟨l, tail, rfl, isBreak⟩ := cons_of_look here (by decide)
      cases run
      exact ⟨[l], rfl, .inl (.line isBreak)⟩
    · cases run
      exact ⟨[], rfl, .inr ⟨rfl, .inl here⟩⟩
    · cases run
      exact ⟨[], rfl, .inr ⟨rfl, .inr here⟩⟩
    · exact absurd run (unexpected_ne_ok _ _ _)

theorem endOfItem_separator {closed : Bool} {sep : List Lexeme} (ends : Separator closed sep)
    (rest : List Lexeme) : endOfItem closed (sep ++ rest) = .ok ((), rest) := by
  cases ends with
  | closed => rfl
  | line isBreak => simp [endOfItem, isBreak]

theorem endOfItem_atEnd {closed : Bool} {rest : List Lexeme} (atEnd : look rest = .eof) :
    endOfItem closed rest = .ok ((), rest) := by
  cases closed <;> simp [endOfItem, atEnd]

end PineLang.Parser
