import PineLang.Proofs.CExprs

/-!
C statements are read back from their lines. There an `else` belongs to the nearest `if` that has none, which is the one
it is printed for unless the statement before it ends in an `if` without one (`Shape.isFaithful`). Generated code has
blocks before its `else`s (`CStmt.Readable`).
-/
namespace PineLang.C

/-! ## Shapes -/

/-- How the conditions and loops of a statement are nested. -/
inductive Shape where
  | plain
  | block (inner : List Shape)
  | loop (body : Shape)
  | if (yes : Shape)
  | ifElse (yes no : Shape)

mutual

/-- The shape of a statement. -/
def CStmt.shape : CStmt → Shape
  | .block ss => .block (shapes ss)
  | .while _ s => .loop s.shape
  | .cond _ yes none => .if yes.shape
  | .cond _ yes (some no) => .ifElse yes.shape no.shape
  | .empty | .continue | .break | .ret _ | .var _ _ | .expr _ | .missing => .plain

/-- The shapes of statements. -/
def shapes : List CStmt → List Shape
  | [] => []
  | s :: ss => s.shape :: shapes ss

end

/-- The statement ends in an `if` without an `else`, which takes an `else` that follows. -/
def Shape.hangs : Shape → Bool
  | .plain | .block _ => false
  | .loop body => body.hangs
  | .if _ => true
  | .ifElse _ no => no.hangs

mutual

/-- No `else` stands behind a statement that takes it from its `if`. -/
def Shape.isFaithful : Shape → Bool
  | .plain => true
  | .block inner => areFaithful inner
  | .loop body => body.isFaithful
  | .if yes => yes.isFaithful
  | .ifElse yes no => !yes.hangs && yes.isFaithful && no.isFaithful

/-- No `else` of the statements stands behind one that takes it from its `if`. -/
def areFaithful : List Shape → Bool
  | [] => true
  | s :: ss => s.isFaithful && areFaithful ss

end

section
variable {structs : List String} {text : Bytes} {ts : List CToken}

/-! ## Typed names -/

variable (structs) in
/-- A type and a name read back. -/
structure Typed (text : Bytes) (ts : List CToken) (p : CParam) : Prop where
  spells : Spells endsWord text ts
  head : ∃ b ∈ text.head?, isWordStart b = true
  first : ∃ w rest, ts = .word w :: rest ∧ startsType structs w = true
  reads : ∀ rest, readTyped structs (ts ++ rest) = some (p, rest)

theorem TypeRead.named {t : CType} (read : TypeRead structs text ts t) {n : String} (word : isWord n = true)
    (object : isObjectName structs n = true) : Typed structs (text ++ utf8 (" " ++ n)) (ts ++ [.word n]) ⟨n, t⟩ where
  spells := by
    have blank : utf8 " " = [0x20] := by simp only [utf8_eq]; decide
    rw [utf8_append, blank]
    exact read.spells.append ((Spells.space (q := anything) rfl).closed (.word word)) (by rintro _ ⟨⟩; rfl) (by simp)
  head := head_append read.head
  first := by
    obtain ⟨w, rest, rfl, starts⟩ := read.first
    exact ⟨w, _, rfl, starts⟩
  reads rest := by
    have notStar : ∀ more, CToken.word n :: rest ≠ .punct .star :: more := nofun
    rw [List.append_assoc, readTyped, List.singleton_append, read.whole notStar]
    simp [readObject, object]

theorem Typed.atType {p : CParam} (typed : Typed structs text ts p) (rest : List CToken) : atType structs (ts ++ rest) = true := by
  obtain ⟨w, more, rfl, starts⟩ := typed.first
  exact starts

/-! ## Statements by themselves -/


variable (structs) in
/-- A statement read back where no `else` follows that it would take. -/
structure Stands (text : Bytes) (ts : List CToken) (s : CStmt) : Prop where
  spells : Spells anything text ts
  first : ∃ t rest, ts = t :: rest ∧ t ≠ .word "else" ∧ t ≠ .punct .rbrace
  untyped : ∀ rest, atType structs (ts ++ rest) = false
  reads : ∀ n rest, (s.shape.hangs = true → past (.word "else") rest = none) → 8 * ts.length ≤ n + 1 →
    readStmt structs n (ts ++ rest) = some (s, rest)

variable (structs) in
/-- A statement or declaration of a block read back. -/
structure Item (text : Bytes) (ts : List CToken) (s : CStmt) : Prop where
  spells : Spells anything text ts
  first : ∃ t rest, ts = t :: rest ∧ t ≠ .word "else" ∧ t ≠ .punct .rbrace
  reads : ∀ n rest, past (.word "else") rest = none → 8 * ts.length ≤ n → readItem structs n (ts ++ rest) = some (s, rest)

theorem Stands.item {s : CStmt} (stands : Stands structs text ts s) : Item structs text ts s where
  spells := stands.spells
  first := stands.first
  reads n rest noElse enough := by
    have nonempty : 0 < ts.length := by
      obtain ⟨t, more, rfl, -⟩ := stands.first
      exact Nat.succ_pos _
    obtain ⟨n, rfl⟩ : ∃ k, n = k + 1 := ⟨n - 1, by omega⟩
    rw [readItem, stands.untyped]
    exact stands.reads n rest (fun _ => noElse) enough

theorem semicolon_bytes : utf8 ";" = Punct.semicolon.bytes := by simp only [utf8_eq]; decide

theorem Spells.semicolon : Spells anything (utf8 ";") [.punct .semicolon] := by
  rw [semicolon_bytes]
  exact .mark (by decide)

theorem Item.var (known : AreStructs structs) {p : CParam} (typed : Typed structs text ts p) :
    Item structs (text ++ utf8 ";") (ts ++ [CToken.punct .semicolon]) (.var p.name p.type) where
  spells := typed.spells.append .semicolon (by rw [semicolon_bytes]; decide) (by rw [semicolon_bytes]; decide)
  first := by
    obtain ⟨w, rest, rfl, starts⟩ := typed.first
    refine ⟨.word w, _, rfl, ?_, nofun⟩
    rintro ⟨⟩
    rw [keyword_untyped known (by decide) (by decide)] at starts
    cases starts
  reads n rest _ enough := by
    rw [List.length_append, List.length_singleton] at enough
    obtain ⟨n, rfl⟩ : ∃ k, n = k + 1 := ⟨n - 1, by omega⟩
    rw [List.append_assoc, readItem, typed.atType, if_pos rfl, typed.reads]
    simp

theorem leads_closed : ∀ e ∈ leads, opensExpr structs e.1 = false := by
  have words : ∀ e ∈ leads, ∀ w, e.1 = .word w → isName w = false ∧ (w == "sizeof") = false := by
    simp only [leads, List.forall_mem_cons, List.not_mem_nil, false_implies, implies_true, and_true, CToken.word.injEq,
      reduceCtorEq, true_and, forall_eq']
    decide
  have puncts : ∀ e ∈ leads, ∀ p, e.1 = .punct p → ((prefixes.lookup p).isSome || p == .lparen) = false := by
    simp [leads, prefixes, List.lookup_cons]
    decide
  intro e member
  cases shape : e.1 with
  | word w => simp [opensExpr, isObjectName, words e member w shape]
  | punct p => exact puncts e member p shape
  | number | str =>
    simp only [leads, List.mem_cons, List.not_mem_nil, or_false] at member
    obtain rfl | rfl | rfl | rfl | rfl | rfl | rfl := member <;> cases shape

theorem lead_expr {t : CToken} (opens : opensExpr structs t = true) : leadOf t = .other := by
  have absent : leads.lookup t = none := by
    rw [List.lookup_eq_none_iff]
    intro e member
    by_contra same
    have : t = e.1 := by simpa using same
    rw [this, leads_closed e member] at opens
    cases opens
  rw [leadOf, absent]
  rfl

variable {x : CExpr}

theorem Alone.full (alone : Alone structs text ts x) {n : Nat} (enough : 8 * ts.length + 4 ≤ n) (rest : List CToken) :
    readFull structs n (ts ++ .punct .semicolon :: rest) = some (x, rest) := by
  have read := alone.reads n (.punct .semicolon :: rest) ⟨_, _, rfl, rfl⟩ enough
  simp [readFull, read]

theorem Alone.test (alone : Alone structs text ts x) {n : Nat} (enough : 8 * ts.length + 4 ≤ n) (rest : List CToken) :
    readTest structs n (.punct .lparen :: (ts ++ .punct .rparen :: rest)) = some (x, rest) := by
  have read := alone.reads n (.punct .rparen :: rest) ⟨_, _, rfl, rfl⟩ enough
  simp [readTest, read]

theorem Alone.ended (alone : Alone structs text ts x) : Spells anything (text ++ utf8 ";") (ts ++ [CToken.punct .semicolon]) :=
  alone.followed .semicolon (by rw [semicolon_bytes]; exact ⟨0x3B, rfl, rfl⟩)

theorem Stands.expr (known : AreStructs structs) (alone : Alone structs text ts x) :
    Stands structs (text ++ utf8 ";") (ts ++ [CToken.punct .semicolon]) (.expr x) where
  spells := alone.ended
  first := by
    obtain ⟨t, rest, rfl, opens⟩ := alone.first
    refine ⟨t, _, rfl, ?_, ?_⟩
    · rintro rfl
      have object : isObjectName structs "else" = false := by
        rw [isObjectName, show isName "else" = false by decide, Bool.false_and]
      simp [opensExpr, object] at opens
    · rintro rfl
      cases opens
  untyped rest := by
    obtain ⟨t, more, rfl, opens⟩ := alone.first
    exact not_type known opens
  reads n rest _ enough := by
    rw [List.length_append, List.length_singleton] at enough
    obtain ⟨n, rfl⟩ : ∃ k, n = k + 1 := ⟨n - 1, by omega⟩
    have full := alone.full (n := n) (by omega) rest
    obtain ⟨t, more, rfl, opens⟩ := alone.first
    simp only [List.cons_append, List.append_assoc, List.nil_append] at full ⊢
    rw [readStmt, lead_expr opens]
    simp [full]

/-- The first token of a statement that is no expression. -/
theorem lead_untyped (known : AreStructs structs) : ∀ e ∈ leads, ∀ rest, atType structs (e.1 :: rest) = false := by
  have words : ∀ e ∈ leads, ∀ w, e.1 = .word w → isName w = false ∧ baseTypes.lookup w = none ∧ w ≠ "char" ∧ w ≠ "struct" := by
    simp only [leads, List.forall_mem_cons, List.not_mem_nil, false_implies, implies_true, and_true, CToken.word.injEq,
      reduceCtorEq, true_and, forall_eq']
    decide
  intro e member rest
  cases shape : e.1 with
  | word w =>
    obtain ⟨keyword, other⟩ := words e member w shape
    exact keyword_untyped known keyword other
  | number | str | punct => rfl

theorem leads_classes : ∀ e ∈ leads, leadOf e.1 = e.2 ∧ e.1 ≠ .word "else" ∧ e.1 ≠ .punct .rbrace := by
  decide

/-- A statement that its first token tells apart is read as such. -/
theorem Stands.led (known : AreStructs structs) {t : CToken} (lead : Lead) (isLead : (t, lead) ∈ leads) {s : CStmt}
    (spells : Spells anything text (t :: ts))
    (reads : ∀ n rest, (s.shape.hangs = true → past (.word "else") rest = none) → 8 * ts.length + 6 ≤ n →
      readStmt structs (n + 1) (t :: (ts ++ rest)) = some (s, rest)) : Stands structs text (t :: ts) s where
  spells := spells
  first := ⟨t, ts, rfl, (leads_classes _ isLead).2⟩
  untyped _ := lead_untyped known _ isLead _
  reads n rest noElse enough := by
    rw [List.length_cons] at enough
    obtain ⟨n, rfl⟩ : ∃ k, n = k + 1 := ⟨n - 1, by omega⟩
    exact reads n rest noElse (by omega)

theorem Spells.keyword {w : String} (word : isWord w = true) : Spells anything (utf8 (w ++ ";")) [.word w, .punct .semicolon] := by
  rw [utf8_append]
  exact (Spells.word word).append .semicolon (by rw [semicolon_bytes]; decide) (by rw [semicolon_bytes]; decide)

theorem Spells.keywordSpace {w : String} (word : isWord w = true) {b : UInt8} (blank : isSpace b = true)
    (ends : endsWord b = true) : Spells anything (utf8 w ++ [b]) [.word w] := by
  have spelled := (Spells.word word).append (Spells.space (q := anything) blank) (by rintro _ ⟨⟩; exact ends) (by simp)
  rwa [List.append_nil] at spelled

theorem Spells.keywordBlank {w : String} (word : isWord w = true) : Spells anything (utf8 (w ++ " ")) [.word w] := by
  have blank : utf8 " " = [0x20] := by simp only [utf8_eq]; decide
  rw [utf8_append, blank]
  exact keywordSpace word rfl rfl

theorem Spells.keywordTest {w : String} (word : isWord w = true) :
    Spells anything (utf8 (w ++ " (")) [.word w, .punct .lparen] := by
  have shape : utf8 (w ++ " (") = utf8 (w ++ " ") ++ Punct.lparen.bytes := by
    have opening : utf8 " (" = utf8 " " ++ Punct.lparen.bytes := by simp only [utf8_eq]; decide
    rw [utf8_append, utf8_append, opening, List.append_assoc]
  rw [shape]
  exact (keywordBlank word).closed (.mark (p := .lparen) (by decide))

theorem Stands.empty (known : AreStructs structs) : Stands structs (utf8 ";") [.punct .semicolon] .empty :=
  .led known .empty (by simp [leads]) .semicolon fun _ _ _ _ => rfl

theorem Stands.break (known : AreStructs structs) :
    Stands structs (utf8 "break;") [.word "break", .punct .semicolon] .break := by
  refine .led known .leave (by simp [leads]) (.keyword (w := "break") (by decide)) fun n rest _ _ => ?_
  rw [readStmt, (leads_classes (.word "break", .leave) (by simp [leads])).1]
  simp

theorem Stands.continue (known : AreStructs structs) :
    Stands structs (utf8 "continue;") [.word "continue", .punct .semicolon] .continue := by
  refine .led known .again (by simp [leads]) (.keyword (w := "continue") (by decide)) fun n rest _ _ => ?_
  rw [readStmt, (leads_classes (.word "continue", .again) (by simp [leads])).1]
  simp

theorem Stands.ret (known : AreStructs structs) :
    Stands structs (utf8 "return;") [.word "return", .punct .semicolon] (.ret none) := by
  refine .led known .ret (by simp [leads]) (.keyword (w := "return") (by decide)) fun n rest _ _ => ?_
  rw [readStmt, (leads_classes (.word "return", .ret) (by simp [leads])).1]
  simp

theorem Stands.retValue (known : AreStructs structs) (alone : Alone structs text ts x) :
    Stands structs (utf8 "return " ++ text ++ utf8 ";") (.word "return" :: (ts ++ [CToken.punct .semicolon])) (.ret (some x)) := by
  refine .led known .ret (by simp [leads]) ?_ fun n rest _ enough => ?_
  · rw [List.append_assoc]
    exact (Spells.keywordBlank (w := "return") (by decide)).closed alone.ended
  · rw [List.length_append, List.length_singleton] at enough
    have full := alone.full (n := n) (by omega) rest
    obtain ⟨t, more, rfl, opens⟩ := alone.first
    have notEnd : past (.punct .semicolon) (t :: (more ++ .punct .semicolon :: rest)) = none := by
      refine past_other ?_ _
      rintro rfl
      cases opens
    simp only [List.cons_append, List.append_assoc, List.nil_append] at full ⊢
    rw [readStmt, (leads_classes (.word "return", .ret) (by simp [leads])).1]
    simp [notEnd, full]

/-! ## Blocks -/

variable (structs) in
/-- The declarations and statements of a block read back, with the brace that ends it. -/
structure Items (text : Bytes) (ts : List CToken) (ss : List CStmt) : Prop where
  spells : Spells anything text ts
  noElse : ∀ rest, past (.word "else") (ts ++ rest) = none
  reads : ∀ n rest, 8 * ts.length + 1 ≤ n → readItems structs n (ts ++ rest) = some (ss, rest)

theorem rbrace_bytes : utf8 "\x7d" = Punct.rbrace.bytes := by simp only [utf8_eq]; decide

theorem Items.none : Items structs (utf8 "\x7d") [.punct .rbrace] [] where
  spells := by
    rw [rbrace_bytes]
    exact .mark (by decide)
  noElse rest := by simp [past]
  reads n rest enough := by
    obtain ⟨n, rfl⟩ : ∃ k, n = k + 1 := ⟨n - 1, by omega⟩
    simp [readItems]

theorem Items.cons {s : CStmt} {ss : List CStmt} {more : Bytes} {us : List CToken} (item : Item structs text ts s)
    (items : Items structs more us ss) : Items structs (text ++ more) (ts ++ us) (s :: ss) where
  spells := item.spells.closed items.spells
  noElse rest := by
    obtain ⟨t, others, rfl, notElse, -⟩ := item.first
    rw [List.cons_append, List.cons_append, past_other notElse]
  reads n rest enough := by
    rw [List.length_append] at enough
    obtain ⟨t, others, rfl, -, notEnd⟩ := item.first
    rw [List.length_cons] at enough
    obtain ⟨n, rfl⟩ : ∃ k, n = k + 1 := ⟨n - 1, by omega⟩
    have read := item.reads n (us ++ rest) (items.noElse rest) (by rw [List.length_cons]; omega)
    have readMore := items.reads n rest (by omega)
    rw [List.cons_append] at read
    rw [List.append_assoc, List.cons_append, readItems, past_other notEnd]
    simp [read, readMore]

theorem Items.padded {ss : List CStmt} (items : Items structs text ts ss) (depth : Nat) :
    Items structs (indentation depth ++ text) ts ss where
  spells := (Spells.spaces (q := anything) (4 * depth)).closed items.spells
  noElse := items.noElse
  reads := items.reads

theorem Spells.newline : Spells anything (utf8 "\n") [] := by
  have byte : utf8 "\n" = [0x0A] := by simp only [utf8_eq]; decide
  rw [byte]
  exact .space rfl

/-- The lines of a block behind a line that ends. -/
theorem Items.line {ss : List CStmt} (items : Items structs text ts ss) : Items structs (utf8 "\n" ++ text) ts ss where
  spells := Spells.newline.closed items.spells
  noElse := items.noElse
  reads := items.reads

theorem Items.opened {ss : List CStmt} (items : Items structs text ts ss) :
    Spells anything (utf8 "\x7b\n" ++ text) (.punct .lbrace :: ts) := by
  have opening : utf8 "\x7b\n" = Punct.lbrace.bytes ++ [0x0A] := by simp only [utf8_eq]; decide
  rw [opening, List.append_assoc]
  exact (Spells.mark (p := .lbrace) (by decide)).closed ((Spells.space (q := anything) rfl).closed items.spells)

theorem Stands.block (known : AreStructs structs) {ss : List CStmt} (items : Items structs text ts ss) :
    Stands structs (utf8 "\x7b\n" ++ text) (.punct .lbrace :: ts) (.block ss) := by
  refine .led known .block (by simp [leads]) items.opened fun n rest _ enough => ?_
  rw [readStmt, (leads_classes (.punct .lbrace, .block) (by simp [leads])).1]
  simp [items.reads n rest (by omega)]

/-! ## Conditions and loops -/

variable {us vs : List CToken} {first second : Bytes} {yes no inner : CStmt}

theorem Alone.inTest (alone : Alone structs text ts x) {w : String} (word : isWord w = true) {more : Bytes} {os : List CToken}
    (spells : Spells anything more os) :
    Spells anything (utf8 (w ++ " (") ++ text ++ utf8 ")" ++ more) (.word w :: .punct .lparen :: (ts ++ .punct .rparen :: os)) := by
  have closing : Spells anything (utf8 ")" ++ more) ([CToken.punct .rparen] ++ os) := Spells.rparen.closed spells
  rw [List.append_assoc, List.append_assoc]
  exact (Spells.keywordTest word).closed (alone.followed closing (head_append ⟨0x29, by rw [rparen_bytes]; rfl, rfl⟩))

theorem Stands.while (known : AreStructs structs) (alone : Alone structs text ts x) {gap : Bytes} (blank : Spells anything gap [])
    (body : Stands structs first us inner) :
    Stands structs (utf8 "while (" ++ text ++ utf8 ")" ++ (gap ++ first))
      (.word "while" :: .punct .lparen :: (ts ++ .punct .rparen :: us)) (.while x inner) := by
  refine .led known .loop (by simp [leads]) (alone.inTest (w := "while") (by decide) (blank.closed body.spells))
    fun n rest noElse enough => ?_
  simp only [List.length_cons, List.length_append] at enough
  have test := alone.test (n := n) (by omega) (us ++ rest)
  have read := body.reads n rest noElse (by omega)
  simp only [List.cons_append, List.append_assoc]
  rw [readStmt, (leads_classes (.word "while", .loop) (by simp [leads])).1]
  simp [test, read]

theorem Stands.if (known : AreStructs structs) (alone : Alone structs text ts x) {gap : Bytes} (blank : Spells anything gap [])
    (then' : Stands structs first us yes) :
    Stands structs (utf8 "if (" ++ text ++ utf8 ")" ++ (gap ++ first))
      (.word "if" :: .punct .lparen :: (ts ++ .punct .rparen :: us)) (.cond x yes none) := by
  refine .led known .cond (by simp [leads]) (alone.inTest (w := "if") (by decide) (blank.closed then'.spells))
    fun n rest noElse enough => ?_
  simp only [List.length_cons, List.length_append] at enough
  have ends : past (.word "else") rest = none := noElse rfl
  have test := alone.test (n := n) (by omega) (us ++ rest)
  have read := then'.reads n rest (fun _ => ends) (by omega)
  simp only [List.cons_append, List.append_assoc]
  rw [readStmt, (leads_classes (.word "if", .cond) (by simp [leads])).1]
  simp [test, read, ends]

/-- The `else` is read with the `if`, because nothing between them takes it. -/
theorem Stands.ifElse (known : AreStructs structs) (alone : Alone structs text ts x) {gap : Bytes} (blank : Spells anything gap [])
    (then' : Stands structs first us yes) (free : yes.shape.hangs = false) {between : Bytes}
    (isElse : Spells anything between [.word "else"]) (other : Stands structs second vs no) :
    Stands structs (utf8 "if (" ++ text ++ utf8 ")" ++ (gap ++ first ++ (between ++ second)))
      (.word "if" :: .punct .lparen :: (ts ++ .punct .rparen :: (us ++ .word "else" :: vs))) (.cond x yes (some no)) := by
  refine .led known .cond (by simp [leads])
    (alone.inTest (w := "if") (by decide) ((blank.closed then'.spells).closed (isElse.closed other.spells)))
    fun n rest noElse enough => ?_
  simp only [List.length_cons, List.length_append] at enough
  have test := alone.test (n := n) (by omega) (us ++ .word "else" :: (vs ++ rest))
  have read := then'.reads n (.word "else" :: (vs ++ rest)) (by simp [free]) (by omega)
  have readOther := other.reads n rest noElse (by omega)
  simp only [List.cons_append, List.append_assoc]
  rw [readStmt, (leads_classes (.word "if", .cond) (by simp [leads])).1]
  simp [test, read, readOther]

/-! ## Statements as they are printed -/

mutual

/-- A statement with a text, and the statement that it reads as where each `else` stays with its `if`: the expressions
are those that their texts read as, and no declaration is the body of a condition or loop. -/
inductive CStmt.Written (structs : List String) : CStmt → CStmt → Prop
  | empty : CStmt.Written structs .empty .empty
  | break : CStmt.Written structs .break .break
  | continue : CStmt.Written structs .continue .continue
  | ret : CStmt.Written structs (.ret none) (.ret none)
  | retValue {x y : CExpr} {ts : List CToken} (value : Alone structs (x.text .whole) ts y) :
    CStmt.Written structs (.ret (some x)) (.ret (some y))
  | block {ss ss' : List CStmt} (inner : WrittenAll structs ss ss') : CStmt.Written structs (.block ss) (.block ss')
  | if {x y : CExpr} {ts : List CToken} {yes yes' : CStmt} (test : Alone structs (x.text .whole) ts y)
    (first : CStmt.Written structs yes yes') : CStmt.Written structs (.cond x yes none) (.cond y yes' none)
  | ifElse {x y : CExpr} {ts : List CToken} {yes yes' no no' : CStmt} (test : Alone structs (x.text .whole) ts y)
    (first : CStmt.Written structs yes yes') (other : CStmt.Written structs no no') :
    CStmt.Written structs (.cond x yes (some no)) (.cond y yes' (some no'))
  | while {x y : CExpr} {ts : List CToken} {body body' : CStmt} (test : Alone structs (x.text .whole) ts y)
    (inner : CStmt.Written structs body body') : CStmt.Written structs (.while x body) (.while y body')
  | expr {x y : CExpr} {ts : List CToken} (alone : Alone structs (x.text .whole) ts y) :
    CStmt.Written structs (.expr x) (.expr y)

/-- The declarations and statements of a block with a text, and those that they read as. -/
inductive WrittenAll (structs : List String) : List CStmt → List CStmt → Prop
  | nil : WrittenAll structs [] []
  | var {n : String} {t : CType} {ts : List CToken} {ss ss' : List CStmt}
    (typed : Typed structs (utf8 (t.text ++ " " ++ n)) ts ⟨n, t⟩) (rest : WrittenAll structs ss ss') :
    WrittenAll structs (.var n t :: ss) (.var n t :: ss')
  | cons {s s' : CStmt} {ss ss' : List CStmt} (first : s.Written structs s') (rest : WrittenAll structs ss ss') :
    WrittenAll structs (s :: ss) (s' :: ss')

end

mutual

theorem CStmt.Written.shape_eq {s s' : CStmt} : s.Written structs s' → s'.shape = s.shape
  | .empty | .break | .continue | .ret | .retValue _ | .expr _ => rfl
  | .block inner => by rw [CStmt.shape, CStmt.shape, inner.shapes_eq]
  | .if _ first => by rw [CStmt.shape, CStmt.shape, first.shape_eq]
  | .ifElse _ first other => by rw [CStmt.shape, CStmt.shape, first.shape_eq, other.shape_eq]
  | .while _ inner => by rw [CStmt.shape, CStmt.shape, inner.shape_eq]
termination_by structural written => written

theorem WrittenAll.shapes_eq {ss ss' : List CStmt} : WrittenAll structs ss ss' → shapes ss' = shapes ss
  | .nil => rfl
  | .var _ rest => by rw [shapes, shapes, rest.shapes_eq]
  | .cons first rest => by rw [shapes, shapes, first.shape_eq, rest.shapes_eq]
termination_by structural written => written

end

/-- As the body of a condition or loop, a statement stands behind a blank or on a line of its own. -/
theorem CStmt.Written.gap {s s' : CStmt} (written : s.Written structs s') (depth : Nat) :
    ∃ b gap inner, s.text true depth = b :: gap ++ s.text false inner ∧ isSpace b = true ∧ endsWord b = true ∧
      Spells anything gap [] := by
  have blank : utf8 " " = [0x20] := by simp only [utf8_eq]; decide
  have newline : utf8 "\n" = [0x0A] := by simp only [utf8_eq]; decide
  cases written with
  | block => exact ⟨0x20, [], depth, by simp [CStmt.text, blank], rfl, rfl, .nil⟩
  | _ => exact ⟨0x0A, indentation (depth + 1), depth + 1, by simp [CStmt.text, lead, ownDepth, newline], rfl, rfl, .spaces _⟩

theorem CStmt.Written.body {s s' : CStmt} (written : s.Written structs s') (depth : Nat) :
    ∃ gap inner, s.text true depth = gap ++ s.text false inner ∧ Spells anything gap [] := by
  obtain ⟨b, gap, inner, shape, blank, -, spells⟩ := written.gap depth
  exact ⟨_, inner, shape, (Spells.space (q := anything) blank).closed spells⟩

/-- An `else` stands behind a blank or on a line of its own, and a condition behind it on the same line. -/
theorem CStmt.Written.elseText {s s' : CStmt} (written : s.Written structs s') (afterBlock : Bool) (depth : Nat) :
    ∃ between inner, C.elseText afterBlock depth (some s) = between ++ s.text false inner ∧
      Spells anything between [.word "else"] := by
  have blank : utf8 " " = [0x20] := by simp only [utf8_eq]; decide
  have before : ∃ gap, Spells anything gap [] ∧
      (if afterBlock then utf8 " else" else utf8 "\n" ++ indentation depth ++ utf8 "else") = gap ++ utf8 "else" := by
    cases afterBlock with
    | false => exact ⟨_, Spells.newline.closed (.spaces _), rfl⟩
    | true =>
      refine ⟨[0x20], .space rfl, ?_⟩
      rw [if_pos rfl, ← blank, ← utf8_append]
      rfl
  have behind : ∃ b gap inner, (if s.isCond then utf8 " " else []) ++ s.text (!s.isCond) depth =
      b :: gap ++ s.text false inner ∧ isSpace b = true ∧ endsWord b = true ∧ Spells anything gap [] := by
    cases nested : s.isCond with
    | false => exact written.gap depth
    | true => exact ⟨0x20, [], depth, by simp [blank], rfl, rfl, .nil⟩
  obtain ⟨first, firstSpells, firstShape⟩ := before
  obtain ⟨b, gap, inner, shape, isBlank, ends, spells⟩ := behind
  refine ⟨first ++ (utf8 "else" ++ [b] ++ gap), inner, ?_, firstSpells.closed ?_⟩
  · rw [C.elseText, firstShape, List.append_assoc, shape]
    simp
  · exact (Spells.keywordSpace (w := "else") (by decide) isBlank ends).closed spells

mutual

/-- Statements are read back at any depth, if each `else` stays with its `if`. -/
theorem CStmt.Written.read (known : AreStructs structs) {s s' : CStmt} : s.Written structs s' → s.shape.isFaithful = true →
    ∀ depth, ∃ ts, Stands structs (s.text false depth) ts s'
  | .empty, _, _ => ⟨_, .empty known⟩
  | .break, _, _ => ⟨_, .break known⟩
  | .continue, _, _ => ⟨_, .continue known⟩
  | .ret, _, _ => ⟨_, .ret known⟩
  | .retValue value, _, _ => ⟨_, .retValue known value⟩
  | .expr alone, _, _ => ⟨_, .expr known alone⟩
  | .block inner, faithful, depth => by
    obtain ⟨ts, items⟩ := inner.read known faithful depth (depth + 1)
    obtain ⟨us, whole⟩ : ∃ us, Stands structs _ us _ := ⟨_, Stands.block known items⟩
    exact ⟨us, by simpa [CStmt.text] using whole⟩
  | .if test first, faithful, depth => by
    obtain ⟨gap, inner, shape, blank⟩ := first.body depth
    obtain ⟨us, yes⟩ := first.read known faithful inner
    obtain ⟨vs, whole⟩ : ∃ vs, Stands structs _ vs _ := ⟨_, Stands.if known test blank yes⟩
    exact ⟨vs, by simpa [CStmt.text, lead, ownDepth, elseText, shape] using whole⟩
  | @CStmt.Written.ifElse _ x y ts yes yes' no no' test first other, faithful, depth => by
    simp only [CStmt.shape, Shape.isFaithful, Bool.and_eq_true, Bool.not_eq_true'] at faithful
    obtain ⟨⟨free, firstFaithful⟩, otherFaithful⟩ := faithful
    obtain ⟨gap, inner, shape, blank⟩ := first.body depth
    obtain ⟨between, behind, elseShape, isElse⟩ := other.elseText yes.isBlock depth
    obtain ⟨us, yes⟩ := first.read known firstFaithful inner
    obtain ⟨vs, no⟩ := other.read known otherFaithful behind
    obtain ⟨ws, whole⟩ : ∃ ws, Stands structs _ ws _ :=
      ⟨_, Stands.ifElse known test blank yes (by rw [first.shape_eq, free]) isElse no⟩
    exact ⟨ws, by simpa [CStmt.text, lead, ownDepth, elseShape, shape] using whole⟩
  | .while test body, faithful, depth => by
    obtain ⟨gap, inner, shape, blank⟩ := body.body depth
    obtain ⟨us, stands⟩ := body.read known faithful inner
    obtain ⟨vs, whole⟩ : ∃ vs, Stands structs _ vs _ := ⟨_, Stands.while known test blank stands⟩
    exact ⟨vs, by simpa [CStmt.text, lead, ownDepth, shape] using whole⟩
termination_by structural written => written

/-- The lines of a block are read back, if each `else` stays with its `if`. -/
theorem WrittenAll.read (known : AreStructs structs) {ss ss' : List CStmt} : WrittenAll structs ss ss' →
    areFaithful (shapes ss) = true → ∀ outer depth,
      ∃ ts, Items structs (stmtLines depth ss ++ indentation outer ++ utf8 "\x7d") ts ss'
  | .nil, _, outer, depth => by
    rw [stmtLines, List.nil_append]
    exact ⟨_, .padded .none outer⟩
  | .var typed rest, faithful, outer, depth => by
    obtain ⟨us, items⟩ := rest.read known (by simpa [shapes, CStmt.shape, areFaithful, Shape.isFaithful] using faithful) outer depth
    obtain ⟨vs, whole⟩ : ∃ vs, Items structs _ vs _ := ⟨_, (Items.cons (.var known typed) items.line).padded depth⟩
    exact ⟨vs, by simpa [stmtLines, CStmt.text, lead] using whole⟩
  | .cons first rest, faithful, outer, depth => by
    rw [shapes, areFaithful, Bool.and_eq_true] at faithful
    obtain ⟨ts, stands⟩ := first.read known faithful.1 depth
    obtain ⟨us, items⟩ := rest.read known faithful.2 outer depth
    obtain ⟨vs, whole⟩ : ∃ vs, Items structs _ vs _ := ⟨_, (Items.cons stands.item items.line).padded depth⟩
    exact ⟨vs, by simpa [stmtLines] using whole⟩
termination_by structural written => written

end

/-! ## Statements of generated code -/

variable (structs) in
/-- Statements with a text of their own: their parts have one, and conditions and loops have blocks. -/
inductive CStmt.Readable : CStmt → Prop
  | empty : Readable .empty
  | break : Readable .break
  | ret : Readable (.ret none)
  | retValue {x : CExpr} (value : x.Readable structs) : Readable (.ret (some x))
  | block {ss : List CStmt} (inner : ∀ s ∈ ss, Readable s) : Readable (.block ss)
  | if {x : CExpr} {ss : List CStmt} (test : x.Readable structs) (yes : ∀ s ∈ ss, Readable s) :
    Readable (.cond x (.block ss) none)
  | ifElse {x : CExpr} {ss no : List CStmt} (test : x.Readable structs) (yes : ∀ s ∈ ss, Readable s)
      (other : ∀ s ∈ no, Readable s) : Readable (.cond x (.block ss) (some (.block no)))
  | while {x : CExpr} {ss : List CStmt} (test : x.Readable structs) (inner : ∀ s ∈ ss, Readable s) :
    Readable (.while x (.block ss))
  | var {n : String} {t : CType} (word : isWord n = true) (object : isObjectName structs n = true)
      (type : t.Readable structs) : Readable (.var n t)
  | expr {x : CExpr} (inner : x.Readable structs) : Readable (.expr x)

theorem areFaithful_of {ss : List CStmt} (each : ∀ s ∈ ss, s.shape.isFaithful = true) : areFaithful (shapes ss) = true := by
  induction ss with
  | nil => rfl
  | cons s ss ih =>
    rw [List.forall_mem_cons] at each
    rw [shapes, areFaithful, each.1, ih each.2]
    rfl

theorem CStmt.Readable.faithful {s : CStmt} (readable : s.Readable structs) : s.shape.isFaithful = true := by
  induction readable with
  | empty | «break» | ret | retValue | var | expr => rfl
  | block _ ih | «if» _ _ ih | «while» _ _ ih => exact areFaithful_of ih
  | ifElse _ _ _ ihYes ihNo => simp [CStmt.shape, Shape.isFaithful, Shape.hangs, areFaithful_of ihYes, areFaithful_of ihNo]

variable (structs) in
/-- A declaration or statement of a block that reads as itself. -/
def CStmt.Kept (s : CStmt) : Prop :=
  s.Written structs s ∨ ∃ n t ts, s = .var n t ∧ Typed structs (utf8 (t.text ++ " " ++ n)) ts ⟨n, t⟩

theorem WrittenAll.of_kept {ss : List CStmt} (each : ∀ s ∈ ss, s.Kept structs) : WrittenAll structs ss ss := by
  induction ss with
  | nil => exact .nil
  | cons s ss ih =>
    rw [List.forall_mem_cons] at each
    obtain written | ⟨n, t, ts, rfl, typed⟩ := each.1
    · exact .cons written (ih each.2)
    · exact .var typed (ih each.2)

theorem CStmt.Readable.kept (known : AreStructs structs) {s : CStmt} (readable : s.Readable structs) : s.Kept structs := by
  induction readable with
  | empty => exact .inl .empty
  | «break» => exact .inl .break
  | ret => exact .inl .ret
  | retValue value =>
    obtain ⟨ts, alone⟩ := value.read known
    exact .inl (.retValue alone)
  | block _ ih => exact .inl (.block (.of_kept ih))
  | «if» test _ ih =>
    obtain ⟨ts, alone⟩ := test.read known
    exact .inl (.if alone (.block (.of_kept ih)))
  | ifElse test _ _ ihYes ihNo =>
    obtain ⟨ts, alone⟩ := test.read known
    exact .inl (.ifElse alone (.block (.of_kept ihYes)) (.block (.of_kept ihNo)))
  | «while» test _ ih =>
    obtain ⟨ts, alone⟩ := test.read known
    exact .inl (.while alone (.block (.of_kept ih)))
  | @var n t word object type =>
    obtain ⟨ts, read⟩ := CType.read known type
    have typed := read.named word object
    rw [← utf8_append, ← String.append_assoc] at typed
    exact .inr ⟨n, t, _, rfl, typed⟩
  | expr inner =>
    obtain ⟨ts, alone⟩ := inner.read known
    exact .inl (.expr alone)

/-- The lines of a block of generated code are read back. -/
theorem items_read (known : AreStructs structs) {ss : List CStmt} (readable : ∀ s ∈ ss, s.Readable structs) (outer depth : Nat) :
    ∃ ts, Items structs (stmtLines depth ss ++ indentation outer ++ utf8 "\x7d") ts ss := by
  have written : WrittenAll structs ss ss := .of_kept fun s member => (readable s member).kept known
  exact written.read known (areFaithful_of fun s member => (readable s member).faithful) outer depth

end
end PineLang.C
