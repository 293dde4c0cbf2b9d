import PineLang.Proofs.FormatRoundTrip

/-!
Formatting is a fixed point. Text that the printer has written is formatted to itself
(`format_fixed_point`). Reading it back gives the same tree up to spans, but the printer also looks at
the text behind the tree: for each `else` whether an `if` is joined to it, and for each struct whether
its fields are in braces. Neat text shows in these places what its tokens say (`Shown`), and the tokens
of printed text make the choices that the printer took from the source before (`items_reprint`).
-/
namespace PineLang
open Lexer Grammar

/-! ## What the printer looks for -/

namespace Printer

variable {before gap rest : Bytes}

theorem utf8_else : utf8 "else" = [0x65, 0x6C, 0x73, 0x65] := by
  decide +kernel

/-- The bytes end in the word `else` and white space. -/
def endsElse (before : Bytes) : Bool := (utf8 "else").reverse.isPrefixOf (before.reverse.dropWhile isSpace)

theorem endsElse_space (blank : ∀ b ∈ gap, isSpace b = true) : endsElse (before ++ gap) = endsElse before := by
  rw [endsElse, endsElse, List.reverse_append, List.dropWhile_append_of_pos (by simpa using blank)]

theorem endsElse_word (before : Bytes) : endsElse (before ++ utf8 "else") = true := by
  simp [endsElse, utf8_else, isSpace]

theorem endsElse_colon (before : Bytes) : endsElse (before ++ [0x3A]) = false := by
  simp [endsElse, utf8_else, isSpace, List.isPrefixOf]

theorem braceAt_gap {b : UInt8} (blank : ∀ c ∈ gap, c = 0x20) (plain : b ≠ 0x20 ∧ b ≠ 0x09) :
    braceAt (before ++ (gap ++ b :: rest)) before.length = (b == 0x7B) := by
  have spaces : ∀ c ∈ gap, (c == 0x20 || c == 0x09) = true := by
    intro c member
    rw [blank c member]
    rfl
  have stops : (b == 0x20 || b == 0x09) = false := by simp [plain]
  rw [braceAt, List.drop_left, List.dropWhile_append_of_pos spaces, List.dropWhile_cons, stops]
  rfl

end Printer

/-- What the printer sees of the tokens in the bytes. -/
structure Shown (source : Bytes) (ts : List Lexeme) : Prop where
  /-- The tokens stand in their order. -/
  ordered : ts.Pairwise fun l m => l.span.start ≤ m.span.start
  /-- With nothing but the start of a body between, a token sees whether it is an `else` or a colon that stands before it. -/
  behind {l m : Lexeme} {ms : List Lexeme} (adjacent : l :: (ms ++ [m]) <:+: ts)
    (start : ∀ x ∈ ms, x.kind = .newLine ∨ x.kind = .indent) (known : l.kind = .kwElse ∨ l.kind = .colon) :
    Printer.elseBefore source m.span.start = (l.kind == .kwElse)
  /-- A name sees whether it is a brace or a colon that stands behind it. -/
  ahead {l m : Lexeme} (adjacent : [l, m] <:+: ts) (isName : l.kind = .ident) (known : m.kind = .lbrace ∨ m.kind = .colon) :
    Printer.braceAt source l.span.stop = (m.kind == .lbrace)

namespace Shown

variable {source : Bytes} {l : Lexeme} {ts us : List Lexeme}

theorem of_infix (shown : Shown source ts) (part : us <:+: ts) : Shown source us where
  ordered := shown.ordered.sublist part.sublist
  behind adjacent := shown.behind (adjacent.trans part)
  ahead adjacent := shown.ahead (adjacent.trans part)

theorem left (shown : Shown source (ts ++ us)) : Shown source ts := shown.of_infix (List.prefix_append ts us).isInfix

theorem right (shown : Shown source (ts ++ us)) : Shown source us := shown.of_infix (List.suffix_append ts us).isInfix

theorem tail (shown : Shown source (l :: ts)) : Shown source ts := shown.of_infix (List.suffix_cons l ts).isInfix

end Shown

/-! ## Neat text shows its tokens -/

namespace Lexer.Neat

variable {ended : Bool} {before behind : Bytes} {l m : Lexeme} {ls ms : List Lexeme}

theorem start_le (neat : Neat ended before behind ls) : ∀ l ∈ ls, before.length ≤ l.span.start := by
  induction neat with
  | done => exact fun l none => absurd none List.not_mem_nil
  | next _ start _ _ _ ih =>
    simp only [List.length_append] at start ih
    intro m member
    obtain rfl | later := List.mem_cons.mp member
    · omega
    · have := ih m later
      omega

/-- Only white space stands between a place and a token, if only the start of a body does. -/
theorem reach {us : List Lexeme} (start : ∀ x ∈ ms, x.kind = .newLine ∨ x.kind = .indent) :
    ∀ {ended : Bool} {before behind : Bytes}, Neat ended before behind (ms ++ m :: us) →
      ∃ gap, (before ++ behind).take m.span.start = before ++ gap ∧ ∀ b ∈ gap, Printer.isSpace b = true := by
  have white {ended : Bool} {gap : Bytes} (blank : ∀ b ∈ gap, b = 0x20 ∨ ended = true ∧ b = 0x0A) :
      ∀ b ∈ gap, Printer.isSpace b = true := by
    intro b member
    obtain rfl | ⟨-, rfl⟩ := blank b member <;> rfl
  induction ms with
  | nil =>
    intro ended before behind neat
    cases neat with
    | @next _ _ gap text behind _ _ blank place _ _ _ =>
      refine ⟨gap, ?_, white blank⟩
      rw [place, ← List.append_assoc, ← List.append_assoc, List.append_assoc _ text, List.take_left]
  | cons x ms ih =>
    intro ended before behind neat
    cases neat with
    | @next _ _ gap text behind _ _ blank _ _ spelled others =>
      obtain ⟨first, later⟩ := List.forall_mem_cons.mp start
      have body : ∀ b ∈ text, Printer.isSpace b = true := by
        obtain isBreak | isIndent := first
        · rw [← spelled [0x0A] (by rw [isBreak]; rfl)]
          simp [Printer.isSpace]
        · rw [← spelled [] (by rw [isIndent]; rfl)]
          simp
      obtain ⟨more, place, blank'⟩ := ih later others
      refine ⟨gap ++ text ++ more, ?_, ?_⟩
      · simpa only [List.append_assoc] using place
      · exact List.forall_mem_append.mpr ⟨List.forall_mem_append.mpr ⟨white blank, body⟩, blank'⟩

theorem shown (neat : Neat ended before behind ls) : Shown (before ++ behind) ls := by
  induction neat with
  | done =>
    refine ⟨.nil, fun adjacent => ?_, fun adjacent => ?_⟩
    · cases List.infix_nil.mp adjacent
    · cases List.infix_nil.mp adjacent
  | @next ended before gap text behind l ls blank start stop spelled others ih =>
    have whole : before ++ (gap ++ text ++ behind) = before ++ gap ++ text ++ behind := by simp only [List.append_assoc]
    rw [whole]
    refine ⟨List.pairwise_cons.mpr ⟨fun m member => ?_, ih.ordered⟩, ?_, ?_⟩
    · have later := others.start_le m member
      rw [List.length_append] at later
      omega
    · intro l' m ms adjacent inner known
      obtain first | later := List.infix_cons_iff.mp adjacent
      · obtain ⟨rfl, us, rfl⟩ := List.cons_prefix_cons.mp first
        rw [List.append_assoc ms, List.singleton_append] at others
        obtain ⟨more, place, white⟩ := others.reach inner
        have looked : Printer.elseBefore (before ++ gap ++ text ++ behind) m.span.start =
            Printer.endsElse (before ++ gap ++ text) := by
          rw [← Printer.endsElse_space white, ← place]
          rfl
        rw [looked]
        obtain isElse | isColon := known
        · rw [← spelled (utf8 "else") (by rw [isElse]; rfl), Printer.endsElse_word, isElse]
          rfl
        · rw [← spelled [0x3A] (by rw [isColon]; decide +kernel), Printer.endsElse_colon, isColon]
          rfl
      · exact ih.behind later inner known
    · intro l' m adjacent isName known
      obtain first | later := List.infix_cons_iff.mp adjacent
      · obtain ⟨rfl, us, rfl⟩ := List.cons_prefix_cons.mp first
        rw [isName] at others
        rw [stop]
        cases others with
        | @next _ _ gap' text' behind' _ _ blank' _ _ spelled' _ =>
          have spaces : ∀ b ∈ gap', b = 0x20 := by
            intro b member
            obtain space | ⟨⟨⟩, -⟩ := blank' b member
            exact space
          rw [List.append_assoc gap']
          obtain isBrace | isColon := known
          · rw [← spelled' [0x7B] (by rw [isBrace]; decide +kernel), isBrace]
            exact Printer.braceAt_gap spaces (by decide)
          · rw [← spelled' [0x3A] (by rw [isColon]; decide +kernel), isColon]
            exact Printer.braceAt_gap spaces (by decide)
      · exact ih.ahead later isName known

end Lexer.Neat

/-! ## Where trees start -/

namespace Span

theorem le_cover_start {n : Nat} {s t : Span} (first : n ≤ s.start) (second : n ≤ t.start) : n ≤ (s.cover t).start := by
  unfold cover
  split
  · exact Nat.le_min.mpr ⟨first, second⟩
  · exact first

theorem cover_start {s t : Span} (order : s.start ≤ t.start) : (s.cover t).start = s.start :=
  Nat.le_antisymm (cover_start_le s t) (le_cover_start (Nat.le_refl _) order)

end Span

theorem stmtsSpan_start_le {n : Nat} : ∀ {ss : List Stmt}, ss ≠ [] → (∀ s ∈ ss, n ≤ s.span.start) → n ≤ (Parser.stmtsSpan ss).start
  | s :: ss, _, later => by
    refine Span.le_cover_start (later s (List.mem_cons_self ..)) ?_
    rw [List.getLastD_cons]
    exact later _ List.getLastD_mem_cons

namespace Grammar

variable {n : Nat} {nearest closed opened : Bool} {ts : List Lexeme}

mutual

/-- A tree starts nowhere before its tokens. -/
theorem Expression.start_le {least : Nat} {ts : List Lexeme} {e : Expr} :
    Expression least ts e → (∀ l ∈ ts, n ≤ l.span.start) → n ≤ e.span.start
  | .operand inner, later => inner.start_le later
  | .binary lhs _ _ rhs, later => by
    simp only [List.forall_mem_append, List.forall_mem_cons] at later
    exact Span.le_cover_start (lhs.start_le later.1) (rhs.start_le later.2.2)
  | .assign lhs _ _ _ rhs, later => by
    simp only [List.forall_mem_append, List.forall_mem_cons] at later
    exact Span.le_cover_start (lhs.start_le later.1) (rhs.start_le later.2.2)

theorem Prefixed.start_le {ts : List Lexeme} {e : Expr} : Prefixed ts e → (∀ l ∈ ts, n ≤ l.span.start) → n ≤ e.span.start
  | .plain inner, later => inner.start_le later
  | .sign _ inner, later => by
    rw [List.forall_mem_cons] at later
    exact Span.le_cover_start later.1 (inner.start_le later.2)

theorem Postfixed.start_le {ts : List Lexeme} {e : Expr} : Postfixed ts e → (∀ l ∈ ts, n ≤ l.span.start) → n ≤ e.span.start
  | .plain inner, later => inner.start_le later
  | .call callee _ _ _, later => by
    simp only [List.forall_mem_append, List.forall_mem_cons] at later
    exact Span.le_cover_start (callee.start_le later.1) later.2.2.2.1
  | .member target _ _, later => by
    simp only [List.forall_mem_append, List.forall_mem_cons] at later
    exact Span.le_cover_start (target.start_le later.1) later.2.2.1

theorem Primary.start_le {ts : List Lexeme} {e : Expr} : Primary ts e → (∀ l ∈ ts, n ≤ l.span.start) → n ≤ e.span.start
  | .leaf isLeaf, later => by
    have here := later _ (List.mem_singleton.mpr rfl)
    unfold leaf? at isLeaf
    split at isLeaf <;> cases isLeaf <;> exact here
  | .group _ _ _, later => by
    simp only [List.forall_mem_append, List.forall_mem_cons] at later
    exact Span.le_cover_start later.1 later.2.2.1
  | .literal _ _ _ _, later => by
    simp only [List.forall_mem_append, List.forall_mem_cons] at later
    exact Span.le_cover_start later.1 later.2.2.2.1

end

theorem Lines.nonempty {ss : List Stmt} (derived : Lines nearest ts ss) : ss ≠ [] := by
  cases derived <;> exact List.cons_ne_nil _ _

mutual

theorem Statement.start_le {closed opened : Bool} {ts : List Lexeme} {s : Stmt} :
    Statement nearest ts s closed opened → (∀ l ∈ ts, n ≤ l.span.start) → n ≤ s.span.start
  | .only _ _ _ first, later => by
    simp only [List.forall_mem_append, List.forall_mem_cons] at later
    exact Span.le_cover_start later.1 (first.start_le later.2.2.2)
  | .both _ _ _ _ _ _ _ second, later => by
    simp only [List.forall_mem_append, List.forall_mem_cons] at later
    exact Span.le_cover_start later.1 (second.start_le later.2.2.2.2.2.2)
  | .chain _ _ _ _ _ _ second, later => by
    simp only [List.forall_mem_append, List.forall_mem_cons] at later
    exact Span.le_cover_start later.1 (second.start_le later.2.2.2.2.2)
  | .bare _, later => later _ (List.mem_singleton.mpr rfl)
  | .value _ inner, later => by
    rw [List.forall_mem_cons] at later
    exact Span.le_cover_start later.1 (inner.start_le later.2)
  | .leave _, later => later _ (List.mem_singleton.mpr rfl)
  | .loop _ _ inner, later => by
    simp only [List.forall_mem_cons] at later
    exact Span.le_cover_start later.1 (inner.start_le later.2.2)
  | .bind _ _ _ _ _ inner, later => by
    simp only [List.forall_mem_cons] at later
    exact Span.le_cover_start later.1 (inner.start_le later.2.2.2.2.2)
  | .empty _, later => later _ (List.mem_singleton.mpr rfl)
  | .expr inner, later => inner.start_le later

theorem Block.start_le {closed opened : Bool} {ts : List Lexeme} {b : Body} :
    Block nearest ts b closed opened → (∀ l ∈ ts, n ≤ l.span.start) → n ≤ b.span.start
  | .line inner, later => inner.start_le later
  | .indented _ _ inner, later => by
    simp only [List.forall_mem_cons] at later
    exact stmtsSpan_start_le inner.nonempty (inner.start_le later.2.2)

theorem Lines.start_le {ts : List Lexeme} {ss : List Stmt} :
    Lines nearest ts ss → (∀ l ∈ ts, n ≤ l.span.start) → ∀ s ∈ ss, n ≤ s.span.start
  | .last inner _ _, later => by
    simp only [List.forall_mem_append] at later
    exact List.forall_mem_singleton.mpr (inner.start_le later.1)
  | .more inner _ rest, later => by
    simp only [List.forall_mem_append] at later
    exact List.forall_mem_cons.mpr ⟨inner.start_le later.1, rest.start_le later.2.2⟩

end

/-- An `if` starts with its word. -/
theorem Statement.if_first {span : Span} {test : Expr} {yes : Body} {no : Option Body}
    (derived : Statement nearest ts (.cond span test yes no) closed opened)
    (ordered : ts.Pairwise fun l m => l.span.start ≤ m.span.start) :
    ∃ l us, ts = l :: us ∧ l.kind = .kwIf ∧ span.start = l.span.start := by
  cases derived with
  | only isIf _ _ first =>
    have later := (List.pairwise_cons.mp ordered).1
    simp only [List.forall_mem_append, List.forall_mem_cons] at later
    exact ⟨_, _, rfl, isIf, Span.cover_start (first.start_le later.2.2)⟩
  | both isIf _ _ _ _ _ _ second =>
    have later := (List.pairwise_cons.mp ordered).1
    simp only [List.forall_mem_append, List.forall_mem_cons] at later
    exact ⟨_, _, rfl, isIf, Span.cover_start (second.start_le later.2.2.2.2.2)⟩
  | chain isIf _ _ _ _ _ second =>
    have later := (List.pairwise_cons.mp ordered).1
    simp only [List.forall_mem_append, List.forall_mem_cons] at later
    exact ⟨_, _, rfl, isIf, Span.cover_start (second.start_le later.2.2.2.2)⟩

/-! ## The choices in shown tokens -/

section Choices

variable {source : Bytes} {l : Lexeme} {s : Stmt} {b : Body}

/-- The printer joins no `if` to an `else` if it stands behind a colon, on the same line or in a body of its own. -/
theorem Statement.not_joined {ms : List Lexeme} (derived : Statement nearest ts s closed opened)
    (shown : Shown source (l :: (ms ++ ts))) (start : ∀ x ∈ ms, x.kind = .newLine ∨ x.kind = .indent) (isColon : l.kind = .colon) :
    Printer.isElseIf source s = false := by
  cases s with
  | cond span =>
    obtain ⟨m, us, rfl, -, place⟩ := derived.if_first shown.tail.right.ordered
    have part : l :: (ms ++ [m]) <:+: l :: (ms ++ m :: us) :=
      (List.cons_prefix_cons.mpr ⟨rfl, (List.prefix_append_right_inj ms).mpr ⟨us, rfl⟩⟩).isInfix
    rw [Printer.isElseIf, place, shown.behind part start (.inr isColon), isColon]
    rfl
  | _ => rfl

theorem Block.not_joined (derived : Block nearest ts b closed opened) (shown : Shown source (l :: ts)) (isColon : l.kind = .colon) :
    Printer.joins source b = false := by
  refine Bool.eq_false_iff.mpr fun joined => ?_
  cases derived with
  | line inner =>
    obtain ⟨s, single, isElseIf⟩ := Printer.joins_eq_true.mp joined
    cases single
    have here : Shown source (l :: ([] ++ _)) := shown
    rw [inner.not_joined here (fun x none => absurd none List.not_mem_nil) isColon] at isElseIf
    cases isElseIf
  | @indented first second us _ isBreak isIndent inner =>
    obtain ⟨s, rfl, isElseIf⟩ := Printer.joins_eq_true.mp joined
    have start : ∀ x ∈ [first, second], x.kind = .newLine ∨ x.kind = .indent := by simp [isBreak, isIndent]
    cases inner with
    | last inner =>
      have before : Shown source (l :: ([first, second] ++ _)) :=
        shown.of_infix (List.cons_prefix_cons.mpr ⟨rfl,
          (List.prefix_append_right_inj [first, second]).mpr (List.prefix_append ..)⟩).isInfix
      rw [inner.not_joined before start isColon] at isElseIf
      cases isElseIf
    | more inner _ rest => exact absurd rfl rest.nonempty

/-- An `if` right behind an `else` is joined to it. -/
theorem Statement.joined {span : Span} {test : Expr} {yes : Body} {no : Option Body}
    (derived : Statement nearest ts (.cond span test yes no) closed opened) (shown : Shown source (l :: ts))
    (isElse : l.kind = .kwElse) : Parser.look ts = .kwIf ∧ Printer.isElseIf source (.cond span test yes no) = true := by
  obtain ⟨m, us, rfl, isIf, place⟩ := derived.if_first shown.tail.ordered
  have part : l :: ([] ++ [m]) <:+: l :: m :: us := (List.cons_prefix_cons.mpr ⟨rfl, ⟨us, rfl⟩⟩).isInfix
  refine ⟨isIf, ?_⟩
  rw [Printer.isElseIf, place, shown.behind part (fun x none => absurd none List.not_mem_nil) (.inl isElse), isElse]
  rfl

mutual

/-- Shown tokens make the choices that the printer takes from the source. -/
theorem Statement.chooses {closed opened : Bool} {ts : List Lexeme} {s : Stmt} :
    Statement nearest ts s closed opened → Shown source ts → Chooses ts (s.choices source)
  | .only isIf cond isColon first, shown => by
    have yes := first.chooses shown.tail.right.tail
    rw [Stmt.choices, elseChoices, List.append_nil]
    exact .condition isIf cond isColon yes
  | .both isIf cond isColon first _ isElse isColon' second, shown => by
    have bodies := shown.tail.right.tail
    have yes := first.chooses bodies.left
    have no := second.chooses bodies.right.tail.tail
    rw [Stmt.choices, elseChoices, second.not_joined bodies.right.tail isColon']
    exact .condition isIf cond isColon (yes.append (.block isElse isColon' no))
  | .chain isIf cond isColon first _ isElse second, shown => by
    have bodies := shown.tail.right.tail
    have yes := first.chooses bodies.left
    have no := second.chooses bodies.right.tail
    obtain ⟨next, joined⟩ := second.joined bodies.right isElse
    rw [Stmt.choices, elseChoices, Printer.joins, joined, Body.choices, stmtsChoices, stmtsChoices, List.append_nil]
    exact .condition isIf cond isColon (yes.append (.chain isElse next no))
  | .bare isReturn, _ => .quiet (by simp [quiet_of_kind isReturn rfl])
  | .value isReturn inner, _ => .quiet (by simp [quiet_of_kind isReturn rfl, inner.quiet])
  | .leave isBreak, _ => .quiet (by simp [quiet_of_kind isBreak rfl])
  | .loop isLoop isColon inner, shown => by
    rw [Stmt.choices]
    exact .cons (quiet_of_kind isLoop rfl) (.cons (quiet_of_kind isColon rfl) (inner.chooses shown.tail.tail))
  | .bind isLet isName isColon isType isAssign inner, _ => .quiet (by
    simp [quiet_of_kind isLet rfl, quiet_of_kind isName rfl, quiet_of_kind isColon rfl, quiet_type isType,
      quiet_of_kind isAssign rfl, inner.quiet])
  | .empty isUnderscore, _ => .quiet (by simp [quiet_of_kind isUnderscore rfl])
  | .expr inner, _ => .quiet inner.quiet

theorem Block.chooses {closed opened : Bool} {ts : List Lexeme} {b : Body} :
    Block nearest ts b closed opened → Shown source ts → Chooses ts (b.choices source)
  | .line inner, shown => by
    rw [Body.choices, stmtsChoices, stmtsChoices, List.append_nil]
    exact inner.chooses shown
  | .indented isBreak isIndent inner, shown => by
    rw [Body.choices]
    exact .cons (quiet_of_kind isBreak rfl) (.cons (quiet_of_kind isIndent rfl) (inner.chooses shown.tail.tail))

theorem Lines.chooses {ts : List Lexeme} {ss : List Stmt} :
    Lines nearest ts ss → Shown source ts → Chooses ts (stmtsChoices source ss)
  | .last inner ends isDedent, shown => by
    rw [stmtsChoices]
    exact (inner.chooses shown.left).append (.quiet (by simp [ends.quiet, quiet_of_kind isDedent rfl]))
  | .more inner ends rest, shown => by
    rw [stmtsChoices]
    exact (inner.chooses shown.left).append ((Chooses.quiet ends.quiet).append (rest.chooses shown.right.right))

end

theorem Declaration.chooses {i : Item} (derived : Declaration nearest ts i closed) (shown : Shown source ts) :
    Chooses ts (i.choices source) := by
  cases derived with
  | fn isFun isName opens fields closes isArrow isType isColon inner =>
    exact .signature isFun isName opens fields closes isArrow isType isColon
      (inner.chooses shown.tail.tail.tail.right.tail.tail.tail.tail)
  | @indented head name colon first second us params isType isName isColon isBreak isIndent fields =>
    have part : [name, colon] <:+: name :: colon :: first :: second :: us := (List.prefix_append [name, colon] _).isInfix
    have plain := shown.tail.ahead part isName (.inr isColon)
    have some : params.isEmpty = false := by
      cases fields <;> rfl
    rw [Item.choices, Printer.braces, plain, some]
    exact .struct isType isName (quiet_of_kind isColon rfl)
      (.cons (quiet_of_kind isBreak rfl) (.cons (quiet_of_kind isIndent rfl) (.quiet fields.quiet)))
  | @braced head name opening closing us params isType isName opens fields closes =>
    have part : [name, opening] <:+: name :: opening :: (us ++ [closing]) := (List.prefix_append [name, opening] _).isInfix
    have brace := shown.tail.ahead part isName (.inl opens)
    have known : (opening.kind == .lbrace) = true := by
      rw [opens]
      rfl
    rw [Item.choices, Printer.braces, brace, known, Bool.or_true, ← known]
    exact .struct isType isName (quiet_of_kind opens rfl) (.quiet (by simp [fields.quiet, quiet_of_kind closes rfl]))

theorem Declarations.chooses {is : List Item} (derived : Declarations nearest ts is) (shown : Shown source ts) :
    Chooses ts (itemsChoices source is) := by
  induction derived with
  | none => exact .nil
  | skip isBreak _ ih => exact .cons (quiet_of_kind isBreak rfl) (ih shown.tail)
  | @more _ sep _ _ _ _ inner ends _ ih =>
    have silent : Quiet sep := by
      obtain separator | ⟨rfl, -⟩ := ends
      · exact separator.quiet
      · exact quiet_nil
    exact (inner.chooses shown.left).append ((Chooses.quiet silent).append (ih shown.right.right))

end Choices

end Grammar

/-! ## The fixed point -/

/-- Formatting is a fixed point: the formatted text of a source that parses and whose names are ASCII is parsed, as a file of
    its own, and formatted to the same bytes again. -/
theorem format_fixed_point (file file' : Nat) (source : Bytes) (f : File) (parsed : parse (lexemes file source) = .ok f)
    (ascii : AsciiNames source (lexemes file source)) :
    ∃ f', parse (lexemes file' (utf8 (f.format source))) = .ok f' ∧ f'.isPrintable = true ∧
      f'.format (utf8 (f.format source)) = f.format source := by
  obtain ⟨ls, is, printed, bare, chosen, read⟩ := items_reprint (reprints_of_parse parsed ascii)
  obtain ⟨neat, told⟩ := lexemes_of_pieces printed read file'
  obtain ⟨-, us, stop, f', whole, same, run, derived, bare'⟩ := parse_of_bare printed told
  rw [whole] at neat
  have shown : Shown (utf8 (f.format source)) us := neat.shown.left
  have choices : itemsChoices (utf8 (f.format source)) f'.items = itemsChoices source f.items := by
    rw [← (derived.chooses shown).choices_eq, choices_of_bare same, chosen.choices_eq]
  refine ⟨f', run, (complete_of_parse run).printable, ?_⟩
  have text := items_text (bare'.trans bare) choices
  rw [File.format, text]
  rfl

theorem format_fixed_point_cramped : ∃ f, parse (lexemes 0 cramped) = .ok f ∧ AsciiNames cramped (lexemes 0 cramped) ∧
    ∃ f', parse (lexemes 1 (utf8 (f.format cramped))) = .ok f' ∧ f'.isPrintable = true ∧
      f'.format (utf8 (f.format cramped)) = f.format cramped := by
  obtain ⟨ascii, f, parsed⟩ := cramped_accepted
  exact ⟨f, parsed, ascii, format_fixed_point 0 1 cramped f parsed ascii⟩

end PineLang
