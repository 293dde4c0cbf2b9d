import PineLang.Proofs.Complete
import PineLang.Proofs.NeatText
import PineLang.Proofs.PrintedItems
import PineLang.Proofs.Reports

/-!
Formatting keeps the tree. The formatted text of a source that parses is lexed without an error and
parsed to the same tree up to spans (`format_roundtrip`): the declarations of the file are printed one
by one, and what each of them reads as is put together again.
-/
namespace PineLang
open Lexer Grammar

/-! ## Files -/

section Files

variable {source : Bytes}

theorem pieces_gap {depth : Nat} {bs : Bytes} (opens : Opens bs) :
    pieces depth (0x0A :: 0x0A :: bs) = mark .newLine "\n" :: (turn depth 0 ++ pieces 0 bs) := by
  have head : lineHead 0 0 0 ([0x0A] ++ bs) = ⟨4 * 0, 1, ⟨1, bs⟩⟩ := by
    rw [List.singleton_append, lineHead, lineHead_opens opens]
  exact pieces_break head fun b member => .inr (List.mem_singleton.mp member)

theorem pieces_last {depth : Nat} : pieces depth [0x0A] = mark .newLine "\n" :: (turn depth 0 ++ [mark .eof ""]) := by
  have head : lineHead 0 0 0 ([] ++ []) = ⟨4 * 0, 0, ⟨0, []⟩⟩ := rfl
  have read : pieces depth (0x0A :: ([] ++ [])) = _ := pieces_break head fun b none => absurd none List.not_mem_nil
  rwa [List.nil_append, pieces_nil] at read

/-- Declarations and the ends of their lines, however deep they end. -/
theorem declarations_cons {ls ms : List Lexeme} {k : Nat} {i : Item} {is : List Item}
    (first : Declaration true (ls ++ ending k) i (k != 0)) (others : Declarations true ms is) :
    Declarations true (ls ++ (closing k ++ ms)) (i :: is) := by
  obtain ⟨sep, ends, whole⟩ := ending_separator k
  have all := Declarations.more first (.inl ends) others
  rwa [List.append_assoc, ← List.append_assoc (ending k), whole] at all

theorem format_opens {i : Item} (is : List Item) (reprints : i.Reprints source) :
    Opens (utf8 ("\n".intercalate ((i :: is).map (Printer.item source)))) := by
  cases is with
  | nil =>
    rw [List.map_singleton, String.intercalate_singleton]
    exact reprints.opens
  | cons j is =>
    rw [List.map_cons, List.map_cons, String.intercalate_cons_cons, String.append_assoc, utf8_append]
    exact reprints.opens.append _

/-- What the printed declarations of a file read as: they are the same declarations up to spans, make
    the choices that the printer took from the source, and no comma trails in them. -/
theorem items_reprint_tidy : ∀ {is : List Item}, (∀ i ∈ is, i.Reprints source) →
    ∃ ls is', Declarations true ls is' ∧ is'.map Item.bare = is.map Item.bare ∧ Chooses ls (itemsChoices source is) ∧
      Tidy ls ∧ pieces 0 (utf8 ("\n".intercalate (is.map (Printer.item source)))) = ls.map Lexeme.bare? ++ [mark .eof ""]
  | [], _ => by
    refine ⟨[], [], .none, rfl, .nil, trivial, ?_⟩
    rw [List.map_nil, String.intercalate_nil, utf8_empty]
    exact pieces_nil
  | [i], reprints => by
    obtain ⟨ls, k, i', derived, bare, chosen, tidy, reads⟩ := (reprints i (List.mem_singleton.mpr rfl)).derives
    have neat : Tidy (ls ++ (closing k ++ [])) := tidy.append ((tidy_closing k).append trivial)
    refine ⟨ls ++ (closing k ++ []), [i'], declarations_cons derived .none, by simp only [List.map_cons, bare], ?_, neat, ?_⟩
    · exact chosen.append ((Chooses.quiet (quiet_closing k)).append .nil)
    · have read := reads []
      rw [List.append_nil, pieces_last] at read
      have closes := map_closing 0 k
      rw [Nat.zero_add] at closes
      rw [List.map_singleton, String.intercalate_singleton, read, List.append_nil, List.map_append, closes, List.append_assoc]
      rfl
  | i :: j :: is, reprints => by
    obtain ⟨ls, k, i', derived, bare, chosen, tidy, reads⟩ := (reprints i (List.mem_cons_self ..)).derives
    have later : ∀ m ∈ j :: is, m.Reprints source := fun m member => reprints m (List.mem_cons_of_mem i member)
    obtain ⟨ms, is', others, bare', chosen', tidy', read'⟩ := items_reprint_tidy later
    have neat := tidy.append ((tidy_closing k).append tidy')
    refine ⟨ls ++ (closing k ++ ms), i' :: is', declarations_cons derived others, ?_, ?_, neat, ?_⟩
    · rw [List.map_cons, List.map_cons, bare, bare']
    · exact chosen.append ((Chooses.quiet (quiet_closing k)).append chosen')
    · have opens := format_opens is (later j (List.mem_cons_self ..))
      have read := reads (0x0A :: utf8 ("\n".intercalate ((j :: is).map (Printer.item source))))
      rw [pieces_gap opens, read'] at read
      have closes := map_closing 0 k
      rw [Nat.zero_add] at closes
      rw [List.map_cons] at read ⊢
      simp only [List.map_cons, String.intercalate_cons_cons, String.append_assoc, utf8_append, utf8_stmtText,
        List.cons_append, List.nil_append] at read ⊢
      rw [read, List.map_append, List.map_append, closes]
      simp only [List.append_assoc, List.cons_append]

theorem items_reprint {is : List Item} (reprints : ∀ i ∈ is, i.Reprints source) :
    ∃ ls is', Declarations true ls is' ∧ is'.map Item.bare = is.map Item.bare ∧ Chooses ls (itemsChoices source is) ∧
      pieces 0 (utf8 ("\n".intercalate (is.map (Printer.item source)))) = ls.map Lexeme.bare? ++ [mark .eof ""] := by
  obtain ⟨ls, is', derived, bare, chosen, -, read⟩ := items_reprint_tidy reprints
  exact ⟨ls, is', derived, bare, chosen, read⟩

end Files

/-! ## Nothing stops the printer -/

mutual

theorem Expr.Complete.holes : ∀ (x : Expr), x.Complete → x.holes = []
  | .ident _ _, _ => rfl
  | .lit _ _, _ => rfl
  | .assign _ a b, complete => by rw [Expr.holes, Expr.Complete.holes a complete.1, Expr.Complete.holes b complete.2]; rfl
  | .call _ f args, complete => by
    rw [Expr.holes, Expr.Complete.holes f complete.1, exprHoles_complete args complete.2]
    rfl
  | .member _ t _ _, complete => Expr.Complete.holes t complete
  | .unary _ _ x, complete => Expr.Complete.holes x complete
  | .binary _ _ a b, complete => by
    rw [Expr.holes, Expr.Complete.holes a complete.2.1, Expr.Complete.holes b complete.2.2]
    rfl
  | .group _ x, complete => Expr.Complete.holes x complete
  | .structLit _ _ _ fs, complete => fieldHoles_complete fs complete

theorem exprHoles_complete : ∀ (xs : List Expr), exprsComplete xs → exprHoles xs = []
  | [], _ => rfl
  | x :: xs, complete => by rw [exprHoles, Expr.Complete.holes x complete.1, exprHoles_complete xs complete.2]; rfl

theorem FieldInit.Complete.holes : ∀ (f : FieldInit), f.Complete → f.holes = []
  | .mk _ _ v, complete => Expr.Complete.holes v complete

theorem fieldHoles_complete : ∀ (fs : List FieldInit), fieldsComplete fs → fieldHoles fs = []
  | [], _ => rfl
  | f :: fs, complete => by rw [fieldHoles, FieldInit.Complete.holes f complete.1, fieldHoles_complete fs complete.2]; rfl

end

mutual

theorem Stmt.Complete.holes : ∀ (s : Stmt), s.Complete → s.holes = []
  | .block _ ss, complete => stmtHoles_complete ss complete
  | .expr _ x, complete => Expr.Complete.holes x complete
  | .cond _ t yes no, complete => by
    rw [Stmt.holes, Expr.Complete.holes t complete.1, Body.Complete.holes yes complete.2.1, elseHoles_complete no complete.2.2]
    rfl
  | .ret _ none, _ => rfl
  | .ret _ (some x), complete => Expr.Complete.holes x complete
  | .brk _, _ => rfl
  | .bind _ _ _ _ v, complete => Expr.Complete.holes v complete.2
  | .loop _ b, complete => Body.Complete.holes b complete
  | .empty _, _ => rfl

theorem Body.Complete.holes : ∀ (b : Body), b.Complete → b.holes = []
  | .block _ ss, complete => stmtHoles_complete ss complete

theorem elseHoles_complete : ∀ (no : Option Body), elseComplete no → elseHoles no = []
  | none, _ => rfl
  | some b, complete => Body.Complete.holes b complete

theorem stmtHoles_complete : ∀ (ss : List Stmt), stmtsComplete ss → stmtHoles ss = []
  | [], _ => rfl
  | s :: ss, complete => by rw [stmtHoles, Stmt.Complete.holes s complete.1, stmtHoles_complete ss complete.2]; rfl

end

theorem File.Complete.printable {f : File} (complete : f.Complete) : f.isPrintable = true := by
  have none : f.holes = [] := by
    refine List.flatMap_eq_nil_iff.mpr fun i member => ?_
    have whole := complete i member
    cases i with
    | fn d => exact Body.Complete.holes d.body whole.2.2
    | struct => rfl
    | absent | hollow => exact whole.elim
  rw [File.isPrintable, none]
  rfl

/-! ## The round trip -/

theorem derived_of_parse {ls : List Lexeme} {f : File} (parsed : parse ls = .ok f) :
    ∃ ts rest, ls = ts ++ rest ∧ Declarations true ts f.items := by
  unfold parse at parsed
  split at parsed
  · cases parsed
  · next read =>
    obtain ⟨_, ts, taken, derived⟩ := Parser.items_sound read
    cases parsed
    exact ⟨ts, _, taken, derived⟩

/-- Lexemes that say what the lexemes of declarations say are no errors, and are parsed to those declarations up to spans. -/
theorem parse_of_bare {ls ms : List Lexeme} {is : List Item} (derived : Declarations true ls is)
    (told : ms.map Lexeme.bare? = ls.map Lexeme.bare? ++ [mark .eof ""]) :
    (∀ l ∈ ms, l.reports = []) ∧ ∃ us stop f, ms = us ++ [stop] ∧ us.map Lexeme.bare? = ls.map Lexeme.bare? ∧
      parse ms = .ok f ∧ Declarations true us f.items ∧ f.items.map Item.bare = is.map Item.bare := by
  obtain ⟨us, _, rfl, same, last⟩ := List.map_eq_append_iff.mp told
  obtain ⟨stop, _, rfl, ends, none⟩ := List.map_eq_cons_iff.mp last
  obtain rfl := List.map_eq_nil_iff.mp none
  obtain ⟨is', again, bare⟩ := derived.relocate us same
  have isEnd : stop.kind = .eof := kind_of_bare (l := .token ⟨.eof, {}, "", .none⟩) ends
  have run : parse (us ++ [stop]) = .ok _ := parse_complete (.mk again isEnd)
  refine ⟨?_, us, stop, _, rfl, same, run, again, bare⟩
  intro l member
  obtain inside | atEnd := List.mem_append.mp member
  · exact reports_of_kind (again.proper l inside).2
  · rw [List.mem_singleton.mp atEnd]
    exact reports_of_kind (by rw [isEnd]; decide)

/-- Sources of which the lexemes say the same are parsed to the same tree up to spans. -/
theorem parse_alike {file file' : Nat} {source source' : Bytes} {cancelled : Bool} {tree : File}
    (parsed : parse (lexemes file source) cancelled = .ok tree)
    (alike : (lexemes file' source').map Lexeme.bare? = (lexemes file source).map Lexeme.bare?) :
    ∃ tree', parse (lexemes file' source') = .ok tree' ∧ tree'.bare = tree.bare := by
  obtain ⟨ls, whole, derived⟩ := declarations_of_parse parsed
  have told : (lexemes file' source').map Lexeme.bare? = ls.map Lexeme.bare? ++ [mark .eof ""] := by
    rw [alike, whole, List.map_append]
    rfl
  obtain ⟨-, -, -, tree', -, -, run, -, bare⟩ := parse_of_bare derived told
  exact ⟨tree', run, by rw [File.bare, File.bare, bare]⟩

/-- Text that reads as declarations is neat, and its lexemes say what those of the declarations say. -/
theorem lexemes_of_pieces {text : Bytes} {ls : List Lexeme} {is : List Item} (derived : Declarations true ls is)
    (read : pieces 0 text = ls.map Lexeme.bare? ++ [mark .eof ""]) (file : Nat) :
    Neat false [] text (lexemes file text) ∧ (lexemes file text).map Lexeme.bare? = ls.map Lexeme.bare? ++ [mark .eof ""] := by
  have clean : none ∉ pieces 0 text := by
    rw [read]
    intro fault
    obtain inside | atEnd := List.mem_append.mp fault
    · obtain ⟨l, member, error⟩ := List.mem_map.mp inside
      cases l with
      | token => cases error
      | error => exact (derived.proper _ member).2 rfl
    · cases List.mem_singleton.mp atEnd
  rw [← read]
  exact lexemes_neat clean file

/-- The declarations of a source that parses and whose names are ASCII print as themselves. -/
theorem reprints_of_parse {file : Nat} {source : Bytes} {f : File} (parsed : parse (lexemes file source) = .ok f)
    (ascii : AsciiNames source (lexemes file source)) : ∀ i ∈ f.items, i.Reprints source := by
  obtain ⟨ts, rest, taken, derived⟩ := derived_of_parse parsed
  have spelled : ∀ l ∈ ts, l.Spelled :=
    fun l member => spelled_of_mem ascii l (by rw [taken]; exact List.mem_append_left rest member)
  exact derived.reprints spelled

/-- Formatting keeps the tree: the formatted text of a source that parses and whose names are ASCII
    is lexed without an error and parsed to the same tree up to spans. -/
theorem format_roundtrip (file file' : Nat) (source : Bytes) (f : File) (parsed : parse (lexemes file source) = .ok f)
    (ascii : AsciiNames source (lexemes file source)) :
    f.isPrintable = true ∧ (∀ l ∈ lexemes file' (utf8 (f.format source)), l.reports = []) ∧
      ∃ f', parse (lexemes file' (utf8 (f.format source))) = .ok f' ∧ f'.bare = f.bare := by
  obtain ⟨ls, is, printed, bare, -, read⟩ := items_reprint (reprints_of_parse parsed ascii)
  obtain ⟨clean, -, -, f', -, -, run, -, bare'⟩ := parse_of_bare printed (lexemes_of_pieces printed read file').2
  refine ⟨(complete_of_parse parsed).printable, clean, f', run, ?_⟩
  rw [File.bare, File.bare, bare', bare]

/-- A struct in braces, one-line bodies, a trailing comma, and an `else` for the nearest `if`. -/
def cramped : Bytes :=
  utf8 "type P\x7bx:i8,\x7d\nfun f(p:P)->_:if!p.x==-1:if a:g(0.5,\"\\t\",)else if b:break else:loop:return P\x7bx:(1)\x7d"

theorem cramped_accepted : AsciiNames cramped (lexemes 0 cramped) ∧ ∃ f, parse (lexemes 0 cramped) = .ok f := by
  have ascii : AsciiNames cramped (lexemes 0 cramped) := by
    rw [AsciiNames, cramped, utf8_ofList]
    decide +kernel
  have accepted : (parse (lexemes 0 cramped)).toOption.isSome = true := by
    rw [cramped, utf8_ofList]
    decide +kernel
  cases parsed : parse (lexemes 0 cramped) with
  | error e =>
    rw [parsed] at accepted
    cases accepted
  | ok f => exact ⟨ascii, f, rfl⟩

theorem format_roundtrip_cramped : ∃ f, parse (lexemes 0 cramped) = .ok f ∧ AsciiNames cramped (lexemes 0 cramped) ∧
    f.isPrintable = true ∧ (∀ l ∈ lexemes 0 (utf8 (f.format cramped)), l.reports = []) ∧
      ∃ f', parse (lexemes 0 (utf8 (f.format cramped))) = .ok f' ∧ f'.bare = f.bare := by
  obtain ⟨ascii, f, parsed⟩ := cramped_accepted
  exact ⟨f, parsed, ascii, format_roundtrip 0 0 cramped f parsed ascii⟩

end PineLang
