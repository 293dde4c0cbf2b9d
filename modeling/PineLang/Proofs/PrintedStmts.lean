import PineLang.Proofs.Choices
import PineLang.Proofs.NearestElse
import PineLang.Proofs.PrintedExprs

/-!
Statements as they are printed. Every body goes on lines of its own, one level deeper, and the lexer
measures those levels again: a statement that is printed at depth `d` reads as its own lexemes, and
leaves the lexer `k` levels deeper for the next line break to close. The lexemes derive the very same
statement, whichever way its bodies and its `else` were written before (`Statement.reprints`).
-/
namespace PineLang
open Lexer

namespace Lexer

/-! ## Lines -/

section Lines

variable {depth level : Nat} {bs rest : Bytes}

theorem utf8_pad (level : Nat) : utf8 (Printer.pad level) = List.replicate (4 * level) 0x20 := by
  have blank : String.utf8EncodeChar ' ' = [0x20] := by decide
  have every (n : Nat) : utf8 ("".pushn ' ' n) = List.replicate n 0x20 := by
    induction n with
    | zero => exact utf8_empty
    | succ n ih =>
      rw [String.pushn_eq_repeat_push] at ih ⊢
      rw [Nat.repeat, String.push_eq_append, utf8_append, ih, utf8_eq, String.toList_singleton, List.flatMap_singleton,
        blank, List.replicate_succ']
  exact every (4 * level)

theorem lineHead_pad : ∀ (n width start off : Nat),
    lineHead width start off (List.replicate n 0x20 ++ bs) = lineHead (width + n) start (off + n) bs
  | 0, _, _, _ => rfl
  | n + 1, width, start, off => by
    rw [List.replicate_succ, List.cons_append, lineHead, lineHead_pad n, Nat.add_right_comm, Nat.add_right_comm off]
    rfl

theorem lineHead_opens (opens : Opens bs) (width start off : Nat) :
    lineHead width start off bs = ⟨width, start, ⟨off, bs⟩⟩ := by
  obtain ⟨b, tail, rfl, opening⟩ := opens
  have other {c : UInt8} (closed : isOpening c = false) : b = c → False := by
    rintro rfl
    rw [opening] at closed
    cases closed
  exact lineHead.eq_7 _ _ _ _ _ (other rfl) (other rfl) (other rfl) (other rfl) fun _ slash => absurd slash (other rfl)

/-- A line at a depth of its own. -/
theorem pieces_line (opens : Opens bs) : pieces depth (0x0A :: (utf8 (Printer.pad level) ++ bs)) =
    mark .newLine "\n" :: (turn depth level ++ pieces level bs) := by
  have head : lineHead 0 0 0 (utf8 (Printer.pad level) ++ bs) = ⟨4 * level, 0, ⟨(utf8 (Printer.pad level)).length, bs⟩⟩ := by
    rw [utf8_pad, lineHead_pad, lineHead_opens opens, Nat.zero_add, List.length_replicate]
  refine pieces_break head fun c member => ?_
  rw [utf8_pad] at member
  exact .inl (List.eq_of_mem_replicate member)

end Lines

/-- The end of a line. -/
def lineEnd : Lexeme := .token ⟨.newLine, {}, "\n", .none⟩

/-- The start of an indented body. -/
def bodyStart : Lexeme := .token ⟨.indent, {}, "", .none⟩

/-- The end of an indented body. -/
def bodyEnd : Lexeme := .token ⟨.dedent, {}, "", .none⟩

/-- The end of a line and of the bodies that end with it. -/
def closing (k : Nat) : List Lexeme := lineEnd :: List.replicate k bodyEnd

/-- What a statement takes of the line break behind it: nothing, or all of it if bodies end there. -/
def ending : Nat → List Lexeme
  | 0 => []
  | k + 1 => closing (k + 1)

theorem map_closing (d k : Nat) : (closing k).map Lexeme.bare? = mark .newLine "\n" :: turn (d + k) d := by
  have notDeeper : ¬ d + k < d := by omega
  rw [closing, List.map_cons, List.map_replicate, turn, if_neg notDeeper, Nat.add_sub_cancel_left]
  rfl

theorem turn_succ (d : Nat) : turn d (d + 1) = [bodyStart].map Lexeme.bare? := by
  have deeper : d < d + 1 := by omega
  rw [turn, if_pos deeper, Nat.add_sub_cancel_left]
  rfl

theorem quiet_closing (k : Nat) : Quiet (closing k) := by
  intro l member
  obtain rfl | inside := List.mem_cons.mp member
  · rfl
  · rw [List.eq_of_mem_replicate inside]
    rfl

theorem tidy_closing (k : Nat) : Tidy (closing k) := by
  refine .cons (by decide) ?_
  induction k with
  | zero => trivial
  | succ k ih => exact .cons (by decide) ih

theorem ending_separator (k : Nat) : ∃ sep, Grammar.Separator (k != 0) sep ∧ ending k ++ sep = closing k := by
  cases k with
  | zero => exact ⟨[lineEnd], .line rfl, rfl⟩
  | succ k => exact ⟨[], .closed, List.append_nil _⟩

/-- What stands before the end of a statement that starts with an `if` starts with it. -/
theorem look_of_ending {ls : List Lexeme} {k : Nat} (atIf : Parser.look (ls ++ ending k) = .kwIf) : Parser.look ls = .kwIf := by
  cases ls with
  | nil => cases k <;> cases atIf
  | cons => exact atIf

theorem ending_last (k : Nat) : ∃ sep, Grammar.LastSeparator (k != 0) sep ∧ ending k ++ (sep ++ [bodyEnd]) = closing (k + 1) := by
  cases k with
  | zero => exact ⟨[lineEnd], .line rfl, rfl⟩
  | succ k =>
    refine ⟨[], .none, ?_⟩
    rw [List.nil_append, ending, closing, closing, List.cons_append, ← List.replicate_succ']

/-- Text for every depth, and what it reads as: lexemes, and then a line break `k` levels deeper. -/
def Leads (text : Nat → Bytes) (ls : List Lexeme) (k : Nat) : Prop :=
  ∀ d rest, pieces d (text d ++ rest) = ls.map Lexeme.bare? ++ pieces (d + k) (0x0A :: rest)

theorem Leads.line {bs : Bytes} {ls : List Lexeme} (prints : Prints bs ls) : Leads (fun _ => bs ++ [0x0A]) ls 0 := by
  intro d rest
  rw [List.append_assoc]
  exact prints.reads d (0x0A :: rest) (cut_cons (by decide))

theorem Leads.header {bs : Bytes} {text : Nat → Bytes} {hs ls : List Lexeme} {k : Nat} (head : Prints bs hs)
    (body : Leads (fun d => 0x0A :: text d) ls k) : Leads (fun d => bs ++ 0x0A :: text d) (hs ++ ls) k := by
  intro d rest
  have read := head.reads d (0x0A :: text d ++ rest) (cut_cons (by decide))
  rw [List.append_assoc, read, body d rest, List.map_append, List.append_assoc]

theorem Leads.spaced {bs : Bytes} {text : Nat → Bytes} {hs ls : List Lexeme} {k : Nat} (word : Reads Cut bs hs)
    (leads : Leads text ls k) : Leads (fun d => bs ++ 0x20 :: text d) (hs ++ ls) k := by
  intro d rest
  have read := word d (0x20 :: text d ++ rest) (cut_cons (by decide))
  rw [List.append_assoc, read, List.cons_append, pieces_blank, leads d rest, List.map_append, List.append_assoc]

/-- What follows on a line of its own, back at the depth of the first. -/
theorem Leads.next {first second : Nat → Bytes} {ls ms : List Lexeme} {j k : Nat} (leads : Leads first ls j)
    (follows : Leads second ms k) (opens : ∀ d, Opens (second d)) :
    Leads (fun d => first d ++ (utf8 (Printer.pad d) ++ second d)) (ls ++ (closing j ++ ms)) k := by
  intro d rest
  rw [List.append_assoc, leads, List.append_assoc, pieces_line ((opens d).append rest), follows d rest, List.map_append,
    List.map_append, map_closing d j]
  simp only [List.append_assoc, List.cons_append]

/-- A lexeme with the one spelling of its kind. -/
def fresh (k : Kind) : Lexeme := .token ⟨k, {}, k.name, .none⟩

/-- The fixed text between the parts of a statement. -/
theorem utf8_stmtText : utf8 "if " = utf8 "if" ++ [0x20] ∧ utf8 ":" = [0x3A] ∧ utf8 "\n" = [0x0A] ∧
    utf8 "return\n" = utf8 "return" ++ [0x0A] ∧ utf8 "return " = utf8 "return" ++ [0x20] ∧
    utf8 "break\n" = utf8 "break" ++ [0x0A] ∧ utf8 "let " = utf8 "let" ++ [0x20] ∧
    utf8 "loop:" = utf8 "loop" ++ [0x3A] ∧ utf8 "_\n" = utf8 "_" ++ [0x0A] ∧ utf8 "else " = utf8 "else" ++ [0x20] ∧
    utf8 "else:\n" = utf8 "else" ++ [0x3A, 0x0A] := by
  decide +kernel

end Lexer

/-! ## Bodies -/

namespace Printer

/-- A statement from the current column on. -/
@[grind =] def line (source : Bytes) (depth : Nat) : Stmt → String
  | .expr _ x => x.text ++ "\n"
  | .cond s t yes no => branch source depth (.cond s t yes no)
  | .ret _ none => "return\n"
  | .ret _ (some x) => "return " ++ x.text ++ "\n"
  | .brk _ => "break\n"
  | .bind _ n _ ty v => "let " ++ n ++ ": " ++ ty.ty.text ++ " = " ++ v.text ++ "\n"
  | .loop _ b => "loop:" ++ body source depth b
  | .empty _ => "_\n"
  | _ => ""

end Printer

open Grammar

/-- A statement is printed as text that reads as lexemes of the same statement, which make the choices it was printed by
    and in which no comma trails. -/
structure Stmt.Reprints (source : Bytes) (s : Stmt) : Prop where
  derives : ∃ ls k opened, Statement true (ls ++ ending k) s (k != 0) opened ∧
    Leads (fun d => utf8 (Printer.line source d s)) ls k ∧ Chooses ls (s.choices source) ∧ Tidy ls
  opens : ∀ d, Opens (utf8 (Printer.line source d s))
  indented : ∀ d, Printer.stmt source d s = Printer.pad d ++ Printer.line source d s

section Bodies

variable {source : Bytes} {ss : List Stmt}

theorem Stmt.Reprints.reads {s : Stmt} (reprints : s.Reprints source) {ls : List Lexeme} {k : Nat}
    (leads : Leads (fun d => utf8 (Printer.line source d s)) ls k) (old d : Nat) (rest : Bytes) :
    pieces old (0x0A :: (utf8 (Printer.stmt source d s) ++ rest)) =
      mark .newLine "\n" :: (turn old d ++ (ls.map Lexeme.bare? ++ pieces (d + k) (0x0A :: rest))) := by
  rw [reprints.indented, utf8_append, List.append_assoc, pieces_line ((reprints.opens d).append rest), leads d rest]

theorem lines_reprint : ∀ {ss : List Stmt}, ss ≠ [] → (∀ s ∈ ss, s.Reprints source) →
    ∃ ls k, Lines true (ls ++ closing (k + 1)) ss ∧ Chooses ls (stmtsChoices source ss) ∧ Tidy ls ∧ ∀ old d rest,
      pieces old (0x0A :: (utf8 (Printer.stmts source d ss) ++ rest)) =
        mark .newLine "\n" :: (turn old d ++ (ls.map Lexeme.bare? ++ pieces (d + k) (0x0A :: rest)))
  | [], nonempty, _ => absurd rfl nonempty
  | [s], _, reprints => by
    have first := reprints s (List.mem_singleton.mpr rfl)
    obtain ⟨ls, k, opened, derived, leads, chosen, tidy⟩ := first.derives
    obtain ⟨sep, ends, whole⟩ := ending_last k
    refine ⟨ls, k, ?_, ?_, tidy, ?_⟩
    · rw [← whole, ← List.append_assoc]
      exact .last derived ends rfl
    · rwa [stmtsChoices, stmtsChoices, List.append_nil]
    · intro old d rest
      rw [Printer.stmts, Printer.stmts, String.append_empty]
      exact first.reads leads old d rest
  | s :: t :: ss, _, reprints => by
    have first := reprints s (List.mem_cons_self ..)
    obtain ⟨ls, k, opened, derived, leads, chosen, tidy⟩ := first.derives
    obtain ⟨ms, j, others, chosen', tidy', remaining⟩ := lines_reprint (List.cons_ne_nil t ss)
      fun u member => reprints u (List.mem_cons_of_mem s member)
    obtain ⟨sep, ends, whole⟩ := ending_separator k
    refine ⟨ls ++ (closing k ++ ms), j, ?_, chosen.append ((Chooses.quiet (quiet_closing k)).append chosen'),
      tidy.append ((tidy_closing k).append tidy'), ?_⟩
    · have lines := Lines.more derived ends others
      rwa [List.append_assoc, ← List.append_assoc (ending k), whole, ← List.append_assoc (closing k),
        ← List.append_assoc ls] at lines
    · intro old d rest
      rw [Printer.stmts, utf8_append, List.append_assoc, first.reads leads, remaining, List.map_append, List.map_append,
        map_closing d k]
      simp only [List.append_assoc, List.cons_append]

theorem utf8_body (d : Nat) (span : Span) :
    utf8 (Printer.body source d (.block span ss)) = 0x0A :: utf8 (Printer.stmts source (d + 1) ss) := by
  simp only [Printer.body, utf8_append, utf8_stmtText]
  rfl

/-- A body is printed as text that reads as an indented body with the same statements. -/
theorem body_reprint (nonempty : ss ≠ []) (reprints : ∀ s ∈ ss, s.Reprints source) :
    ∃ ls k, Block true (ls ++ ending (k + 1)) (.block (Parser.stmtsSpan ss) ss) true false ∧
      Leads (fun d => 0x0A :: utf8 (Printer.stmts source (d + 1) ss)) ls (k + 1) ∧ Chooses ls (stmtsChoices source ss) ∧
        Tidy ls := by
  obtain ⟨ls, k, lines, chosen, tidy, reads⟩ := lines_reprint nonempty reprints
  refine ⟨lineEnd :: bodyStart :: ls, k, .indented rfl rfl lines, ?_, .cons rfl (.cons rfl chosen),
    .cons (by decide) (.cons (by decide) tidy)⟩
  intro d rest
  have depths : d + 1 + k = d + (k + 1) := by omega
  rw [List.cons_append, reads d (d + 1) rest, turn_succ, depths]
  rfl

theorem stmtsSpan_singleton (s : Stmt) : Parser.stmtsSpan [s] = s.span := by
  simp [Parser.stmtsSpan, Span.cover]

theorem otherwise_block {d : Nat} {span : Span} (plain : Printer.joins source (.block span ss) = false) :
    Printer.otherwise source d (some (.block span ss)) =
      Printer.pad d ++ ("else:\n" ++ Printer.stmts source (d + 1) ss) := by
  match ss with
  | [] => simp only [Printer.otherwise, String.append_assoc]
  | [s] =>
    rw [Printer.joins] at plain
    simp only [Printer.otherwise, plain, Bool.false_eq_true, if_false, Printer.stmts, String.append_empty,
      String.append_assoc]
  | s :: t :: ss => simp only [Printer.otherwise, String.append_assoc]

/-- An `else` is printed as text that reads as an `else` with the same statements. -/
theorem otherwise_reprint (nonempty : ss ≠ []) (reprints : ∀ s ∈ ss, s.Reprints source) (span : Span) :
    ∃ (ls : List Lexeme) (k : Nat) (opened : Bool) (text : Nat → Bytes),
      Branch true (ls ++ ending k) (.block (Parser.stmtsSpan ss) ss) (k != 0) opened ∧
        (∀ d, utf8 (Printer.otherwise source d (some (.block span ss))) = utf8 (Printer.pad d) ++ text d) ∧
          (∀ d, Opens (text d)) ∧ Leads text ls k ∧ Chooses ls (elseChoices source (some (.block span ss))) ∧ Tidy ls := by
  have word : Prints (utf8 "else") [fresh .kwElse] := .fixedWord (spelled_fixed rfl _) rfl (by decide) rfl
  by_cases joined : Printer.joins source (.block span ss) = true
  · obtain ⟨s, rfl, isElseIf⟩ := Printer.joins_eq_true.mp joined
    have inner := reprints s (List.mem_singleton.mpr rfl)
    obtain ⟨ls, k, opened, derived, leads, chosen, tidy⟩ := inner.derives
    cases s with
    | cond span' test yes no =>
      refine ⟨fresh .kwElse :: ls, k, opened, fun d => utf8 "else" ++ 0x20 :: utf8 (Printer.line source d _), ?_, ?_, ?_,
        leads.spaced word.reads, ?_, .cons (by decide) tidy⟩
      · rw [stmtsSpan_singleton]
        exact .chain rfl derived
      · intro d
        simp only [Printer.otherwise, isElseIf, if_true, utf8_append, utf8_stmtText, Printer.line, List.append_assoc]
        rfl
      · exact fun d => word.opens.append _
      · have atIf := derived.look_cond []
        rw [List.append_nil] at atIf
        rw [elseChoices, joined, Body.choices, stmtsChoices, stmtsChoices, List.append_nil]
        exact .chain rfl (look_of_ending atIf) chosen
    | _ => cases isElseIf
  · obtain ⟨ls, k, block, leads, chosen, tidy⟩ := body_reprint nonempty reprints
    have colon : Reads Cut [0x3A] [fresh .colon] := .mark (spelled_fixed rfl _) rfl (by decide)
    have head := word.append colon fun _ _ => cut_cons (by decide)
    have plain := Bool.eq_false_iff.mpr joined
    refine ⟨fresh .kwElse :: fresh .colon :: ls, k + 1, false, _, .block rfl rfl block, ?_, fun d => head.opens.append _,
      leads.header head, ?_, .cons (by decide) (.cons (by decide) tidy)⟩
    · intro d
      simp only [otherwise_block plain, utf8_append, utf8_stmtText, List.append_assoc]
      rfl
    · rw [elseChoices, plain]
      exact .block rfl rfl chosen

end Bodies

/-! ## Statements -/

/-- A body whose statements are all printed as text that reads as the same statements. -/
def Body.Reprints (source : Bytes) (b : Body) : Prop :=
  ∃ ss, b = .block (Parser.stmtsSpan ss) ss ∧ ss ≠ [] ∧ ∀ s ∈ ss, s.Reprints source

section Statements

variable {source bs : Bytes} {ls : List Lexeme} {s : Stmt}

theorem Stmt.Reprints.of_line (derived : Statement true ls s false false) (prints : Prints bs ls)
    (text : ∀ d, utf8 (Printer.line source d s) = bs ++ [0x0A])
    (indented : ∀ d, Printer.stmt source d s = Printer.pad d ++ Printer.line source d s)
    (silent : Quiet ls) (tidy : Tidy ls) (none : s.choices source = []) : s.Reprints source := by
  refine ⟨⟨ls, 0, false, ?_, ?_, ?_, tidy⟩, ?_, indented⟩
  · rw [ending, List.append_nil]
    exact derived
  · simp only [text]
    exact .line prints
  · rw [none]
    exact .quiet silent
  · intro d
    rw [text]
    exact prints.opens.append _

namespace Grammar

/-- An `if` with what follows from its `else` on. -/
theorem Statement.of_branch {head colon : Lexeme} {ts bs cs : List Lexeme} {test : Expr} {yes no : Body}
    {closed closed' opened : Bool} (isIf : head.kind = .kwIf) (cond : Expression 0 ts test) (isColon : colon.kind = .colon)
    (first : Block true bs yes closed false) (branch : Branch true cs no closed' opened) :
    Statement true (head :: (ts ++ colon :: (bs ++ cs))) (.cond (head.span.cover no.span) test yes (some no)) closed' opened := by
  cases branch with
  | block isElse isColon' inner => exact .both isIf cond isColon first (fun _ => rfl) isElse isColon' inner
  | chain isElse inner => exact .chain isIf cond isColon first (fun _ => rfl) isElse inner

end Grammar

variable {head colon : Lexeme} {ts : List Lexeme} {test : Expr} {yes no : Body}

theorem Chooses.condition {cs : List Bool} (isIf : head.kind = .kwIf) (cond : Expression 0 ts test)
    (isColon : colon.kind = .colon) (others : Chooses ls cs) : Chooses (head :: (ts ++ colon :: ls)) cs := by
  have tested := (Chooses.quiet cond.quiet).append (others.cons (quiet_of_kind isColon rfl))
  exact tested.cons (quiet_of_kind isIf rfl)

theorem Tidy.condition (isIf : head.kind = .kwIf) (test : Tidy ts) (isColon : colon.kind = .colon) (others : Tidy ls) :
    Tidy (head :: (ts ++ colon :: ls)) :=
  (test.append (others.kind isColon (by decide))).kind isIf (by decide)

theorem Prints.condition (spelled : head.Spelled) (isIf : head.kind = .kwIf) (test : Prints bs ts)
    (spelled' : colon.Spelled) (isColon : colon.kind = .colon) :
    Prints (utf8 "if" ++ 0x20 :: (bs ++ [0x3A])) (head :: (ts ++ [colon])) := by
  have word : Prints (utf8 "if") [head] := .fixedWord spelled isIf (by decide) rfl
  have colons : Reads Cut [0x3A] [colon] := .mark spelled' isColon (by decide)
  have tested := test.append colons fun _ _ => cut_cons (by decide)
  exact ⟨word.reads.spaced tested.reads, word.opens.append _⟩

theorem Stmt.Reprints.cond_only (isIf : head.kind = .kwIf) (cond : Expression 0 ts test) (neat : Tidy ts)
    (isColon : colon.kind = .colon)
    (header : Prints (utf8 "if" ++ 0x20 :: (utf8 test.text ++ [0x3A])) (head :: (ts ++ [colon])))
    (first : yes.Reprints source) : (Stmt.cond (head.span.cover yes.span) test yes none).Reprints source := by
  obtain ⟨ss, rfl, nonempty, reprints⟩ := first
  obtain ⟨us, k, block, leads, chosen, tidy⟩ := body_reprint nonempty reprints
  have text (d : Nat) (span : Span) : utf8 (Printer.line source d (.cond span test (.block (Parser.stmtsSpan ss) ss) none)) =
      (utf8 "if" ++ 0x20 :: (utf8 test.text ++ [0x3A])) ++ 0x0A :: utf8 (Printer.stmts source (d + 1) ss) := by
    simp only [Printer.line, Printer.branch, Printer.otherwise, String.append_empty, utf8_append, utf8_stmtText, utf8_body,
      List.append_assoc, List.cons_append, List.nil_append]
  refine ⟨⟨head :: (ts ++ colon :: us), k + 1, true, ?_, ?_, ?_, .condition isIf neat isColon tidy⟩, ?_, ?_⟩
  · simp only [List.cons_append, List.append_assoc]
    exact .only isIf cond isColon block
  · have whole := leads.header header
    simpa only [text, List.cons_append, List.append_assoc, List.nil_append] using whole
  · simp only [Stmt.choices, Body.choices, elseChoices, List.append_nil]
    exact .condition isIf cond isColon chosen
  · intro d
    rw [text]
    exact header.opens.append _
  · intro d
    simp only [Printer.stmt, Printer.line, Printer.branch, String.append_assoc]

theorem Stmt.Reprints.cond_both (isIf : head.kind = .kwIf) (cond : Expression 0 ts test) (neat : Tidy ts)
    (isColon : colon.kind = .colon)
    (header : Prints (utf8 "if" ++ 0x20 :: (utf8 test.text ++ [0x3A])) (head :: (ts ++ [colon])))
    (first : yes.Reprints source) (second : no.Reprints source) :
    (Stmt.cond (head.span.cover no.span) test yes (some no)).Reprints source := by
  obtain ⟨ss, rfl, nonempty, reprints⟩ := first
  obtain ⟨ss', rfl, nonempty', reprints'⟩ := second
  obtain ⟨us, j, block, leads, chosen, tidy⟩ := body_reprint nonempty reprints
  obtain ⟨vs, k, opened, after, branch, shape, opens, leads', chosen', tidy'⟩ :=
    otherwise_reprint nonempty' reprints' (Parser.stmtsSpan ss')
  have text (d : Nat) (span : Span) : utf8 (Printer.line source d (.cond span test (.block (Parser.stmtsSpan ss) ss)
      (some (.block (Parser.stmtsSpan ss') ss')))) = (utf8 "if" ++ 0x20 :: (utf8 test.text ++ [0x3A])) ++
        0x0A :: utf8 (Printer.stmts source (d + 1) ss) ++ (utf8 (Printer.pad d) ++ after d) := by
    simp only [Printer.line, Printer.branch, utf8_append, utf8_stmtText, utf8_body, shape,
      List.append_assoc, List.cons_append, List.nil_append]
  have bodies := tidy.append ((tidy_closing (j + 1)).append tidy')
  refine ⟨⟨head :: (ts ++ colon :: (us ++ (closing (j + 1) ++ vs))), k, opened, ?_, ?_, ?_,
    .condition isIf neat isColon bodies⟩, ?_, ?_⟩
  · have derived := Statement.of_branch isIf cond isColon block branch
    simpa only [ending, List.cons_append, List.append_assoc] using derived
  · have whole := (leads.header header).next leads' opens
    simpa only [text, List.cons_append, List.append_assoc, List.nil_append] using whole
  · rw [Stmt.choices, Body.choices]
    exact .condition isIf cond isColon (chosen.append ((Chooses.quiet (quiet_closing (j + 1))).append chosen'))
  · intro d
    rw [text, List.append_assoc]
    exact header.opens.append _
  · intro d
    simp only [Printer.stmt, Printer.line, Printer.branch, String.append_assoc]

end Statements

namespace Grammar

variable {source : Bytes}

mutual

/-- The printed text of a statement reads as lexemes of the same statement. -/
theorem Statement.reprints {ts : List Lexeme} {s : Stmt} {closed opened : Bool} : Statement true ts s closed opened →
    (∀ l ∈ ts, l.Spelled) → s.Reprints source
  | .only isIf cond isColon first, spelled => by
    simp only [List.forall_mem_append, List.forall_mem_cons] at spelled
    obtain ⟨us, derived, tidy, prints⟩ := cond.reprints spelled.2.1
    have header := Prints.condition spelled.1 isIf prints spelled.2.2.1 isColon
    exact .cond_only isIf derived tidy isColon header (first.reprints spelled.2.2.2)
  | .both isIf cond isColon first _ _ _ second, spelled => by
    simp only [List.forall_mem_append, List.forall_mem_cons] at spelled
    obtain ⟨us, derived, tidy, prints⟩ := cond.reprints spelled.2.1
    have header := Prints.condition spelled.1 isIf prints spelled.2.2.1 isColon
    exact .cond_both isIf derived tidy isColon header (first.reprints spelled.2.2.2.1) (second.reprints spelled.2.2.2.2.2.2)
  | @Statement.chain _ _ _ _ _ _ _ _ test' _ yes' no' span _ _ _ _ isIf cond isColon first _ _ second, spelled => by
    simp only [List.forall_mem_append, List.forall_mem_cons] at spelled
    obtain ⟨us, derived, tidy, prints⟩ := cond.reprints spelled.2.1
    have header := Prints.condition spelled.1 isIf prints spelled.2.2.1 isColon
    have inner := second.reprints spelled.2.2.2.2.2
    have branch : (Body.block span [.cond span test' yes' no']).Reprints source := by
      refine ⟨[.cond span test' yes' no'], ?_, List.cons_ne_nil _ _, List.forall_mem_singleton.mpr inner⟩
      rw [stmtsSpan_singleton]
      rfl
    exact .cond_both isIf derived tidy isColon header (first.reprints spelled.2.2.2.1) branch
  | .bare isReturn, spelled => by
    have word : Prints (utf8 "return") _ := .fixedWord (spelled _ (List.mem_singleton.mpr rfl)) isReturn (by decide) rfl
    refine .of_line (.bare isReturn) word (fun d => ?_) (fun d => rfl) (by simp [quiet_of_kind isReturn rfl])
      (.single isReturn (by decide)) rfl
    simp only [Printer.line, utf8_stmtText]
  | .value isReturn inner, spelled => by
    rw [List.forall_mem_cons] at spelled
    obtain ⟨us, derived, tidy, prints⟩ := inner.reprints spelled.2
    have word : Prints (utf8 "return") _ := .fixedWord spelled.1 isReturn (by decide) rfl
    refine .of_line (.value isReturn derived) ⟨word.reads.spaced prints.reads, word.opens.append _⟩ (fun d => ?_)
      (fun d => ?_) (by simp [quiet_of_kind isReturn rfl, derived.quiet]) (tidy.kind isReturn (by decide)) rfl
    · simp only [Printer.line, utf8_append, utf8_stmtText, List.append_assoc, List.cons_append, List.nil_append]
    · simp only [Printer.stmt, Printer.line, String.append_assoc]
  | .leave isBreak, spelled => by
    have word : Prints (utf8 "break") _ := .fixedWord (spelled _ (List.mem_singleton.mpr rfl)) isBreak (by decide) rfl
    refine .of_line (.leave isBreak) word (fun d => ?_) (fun d => rfl) (by simp [quiet_of_kind isBreak rfl])
      (.single isBreak (by decide)) rfl
    simp only [Printer.line, utf8_stmtText]
  | @Statement.loop _ head colon _ body _ _ isLoop isColon inner, spelled => by
    simp only [List.forall_mem_cons] at spelled
    obtain ⟨ss, rfl, nonempty, reprints⟩ := inner.reprints spelled.2.2
    obtain ⟨us, k, block, leads, chosen, tidy⟩ := body_reprint nonempty reprints
    have word : Prints (utf8 "loop") [head] := .fixedWord spelled.1 isLoop (by decide) rfl
    have colons : Reads Cut [0x3A] [colon] := .mark spelled.2.1 isColon (by decide)
    have header := word.append colons fun _ _ => cut_cons (by decide)
    have text (d : Nat) (span : Span) : utf8 (Printer.line source d (.loop span (.block (Parser.stmtsSpan ss) ss))) =
        (utf8 "loop" ++ [0x3A]) ++ 0x0A :: utf8 (Printer.stmts source (d + 1) ss) := by
      simp only [Printer.line, utf8_append, utf8_stmtText, utf8_body]
    have neat := (tidy.kind isColon (by decide)).kind isLoop (by decide)
    refine ⟨⟨head :: colon :: us, k + 1, false, .loop isLoop isColon block, ?_, ?_, neat⟩, ?_, ?_⟩
    · simp only [text]
      exact leads.header header
    · exact .cons (quiet_of_kind isLoop rfl) (.cons (quiet_of_kind isColon rfl) chosen)
    · intro d
      rw [text]
      exact header.opens.append _
    · intro d
      simp only [Printer.stmt, Printer.line, String.append_assoc]
  | @Statement.bind _ head name colon type sign _ ref e isLet isName isColon isType isAssign inner, spelled => by
    simp only [List.forall_mem_cons] at spelled
    obtain ⟨us, derived, tidy, prints⟩ := inner.reprints spelled.2.2.2.2.2
    have word : Prints (utf8 "let") [head] := .fixedWord spelled.1 isLet (by decide) rfl
    have annotated := Prints.annotation spelled.2.2.2.1 isType
    have equals : Reads Cut [0x3D] [sign] := .mark spelled.2.2.2.2.1 isAssign (by decide)
    have typed := annotated.reads.spaced (equals.spaced prints.reads)
    have label := Prints.labelled spelled.2.1 spelled.2.2.1 isName isColon typed
    refine .of_line (.bind isLet isName isColon isType isAssign derived)
      ⟨word.reads.spaced label.reads, word.opens.append _⟩ (fun d => ?_) (fun d => ?_) ?_ ?_ rfl
    · simp only [Printer.line, utf8_append, utf8_stmtText, utf8_exprText, List.append_assoc, List.cons_append, List.nil_append]
    · simp only [Printer.stmt, Printer.line, String.append_assoc]
    · simp [quiet_of_kind isLet rfl, quiet_of_kind isName rfl, quiet_of_kind isColon rfl, quiet_type isType,
        quiet_of_kind isAssign rfl, derived.quiet]
    · have value := (tidy.kind isAssign (by decide)).cons (other_of_type isType)
      exact ((value.kind isColon (by decide)).kind isName (by decide)).kind isLet (by decide)
  | .empty isUnderscore, spelled => by
    have word : Prints (utf8 "_") _ := .fixedWord (spelled _ (List.mem_singleton.mpr rfl)) isUnderscore (by decide) rfl
    refine .of_line (.empty isUnderscore) word (fun d => ?_) (fun d => rfl) (by simp [quiet_of_kind isUnderscore rfl])
      (.single isUnderscore (by decide)) rfl
    simp only [Printer.line, utf8_stmtText]
  | .expr inner, spelled => by
    obtain ⟨us, derived, tidy, prints⟩ := inner.reprints spelled
    refine .of_line (.expr derived) prints (fun d => ?_) (fun d => ?_) derived.quiet tidy rfl
    · simp only [Printer.line, utf8_append, utf8_stmtText]
    · simp only [Printer.stmt, Printer.line, String.append_assoc]

theorem Block.reprints {ts : List Lexeme} {b : Body} {closed opened : Bool} : Block true ts b closed opened →
    (∀ l ∈ ts, l.Spelled) → b.Reprints source
  | @Block.line _ _ s _ _ inner, spelled => by
    refine ⟨[s], ?_, List.cons_ne_nil _ _, List.forall_mem_singleton.mpr (inner.reprints spelled)⟩
    rw [stmtsSpan_singleton]
  | .indented _ _ inner, spelled => by
    simp only [List.forall_mem_cons] at spelled
    exact ⟨_, rfl, inner.reprints spelled.2.2⟩

theorem Lines.reprints {ts : List Lexeme} {ss : List Stmt} : Lines true ts ss →
    (∀ l ∈ ts, l.Spelled) → ss ≠ [] ∧ ∀ s ∈ ss, s.Reprints source
  | .last inner _ _, spelled => by
    rw [List.forall_mem_append] at spelled
    exact ⟨List.cons_ne_nil _ _, List.forall_mem_singleton.mpr (inner.reprints spelled.1)⟩
  | .more inner _ rest, spelled => by
    simp only [List.forall_mem_append] at spelled
    have others := rest.reprints spelled.2.2
    exact ⟨List.cons_ne_nil _ _, List.forall_mem_cons.mpr ⟨inner.reprints spelled.1, others.2⟩⟩

end

end Grammar
end PineLang
