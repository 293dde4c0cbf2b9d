import PineLang.Proofs.Reports
import PineLang.Proofs.SourceGaps
import PineLang.Proofs.TokenKinds

/-!
The tokens that formatting keeps. A tree does not record whether an `else` is joined to the `if` behind it, or whether
the fields of a struct are in braces (`Fork`). The printer looks for both in the bytes of the source, but not as far as
white space goes there: before an `if` it passes over line breaks, so that the end of a comment is taken for an `else`,
and behind the name of a struct it does not pass over a carriage return. Where it looks, it finds what is written
(`Fork.written`) or not, and formatting keeps the kinds of the tokens exactly if it finds it everywhere
(`format_keeps_tokens_iff`).
-/
namespace PineLang
open Lexer Grammar

/-! ## Spellings that a tree does not record -/

/-- A place in a tree that can be spelled in two ways: the body of an `else`, or the fields of a struct. -/
inductive Fork where
  | otherwise (body : Body)
  | fields (decl : StructDecl)

namespace Fork

/-- What the printer finds: an `else` joined to an `if`, and fields in braces. -/
def found (source : Bytes) : Fork → Bool
  | otherwise b => Printer.joins source b
  | fields d => Printer.braces source d

/-- An `if` with an `else` before it on its line. -/
def isElseIf (source : Bytes) : Stmt → Bool
  | .cond s _ _ _ => Printer.elseOnLine source s.start
  | _ => false

/-- What the source says: an `else` on the line of the `if` that is all of its body, and a brace on the line of the
    name. -/
def written (source : Bytes) : Fork → Bool
  | otherwise (.block _ [s]) => isElseIf source s
  | otherwise _ => false
  | fields d => d.fields.isEmpty || Printer.opensBrace source d.nameSpan.stop

theorem written_block {source : Bytes} {span : Span} {ss : List Stmt} :
    written source (otherwise (.block span ss)) = true ↔ ∃ s, ss = [s] ∧ isElseIf source s = true := by
  match ss with
  | [] => simp [written]
  | [s] => simp [written]
  | s :: t :: ss => simp [written]

end Fork

mutual

/-- The forks of a statement, in the order in which it is printed. -/
def Stmt.forks : Stmt → List Fork
  | .block _ ss => stmtsForks ss
  | .cond _ _ yes no => yes.forks ++ elseForks no
  | .loop _ b => b.forks
  | .expr _ _ | .ret _ _ | .brk _ | .bind _ _ _ _ _ | .empty _ | .absent _ | .hollow _ _ => []
termination_by structural s => s

/-- The forks of a body. -/
def Body.forks : Body → List Fork
  | .block _ ss => stmtsForks ss
  | .stray _ s => s.forks
termination_by structural b => b

/-- The forks of an `else`, if there is one: its own first. -/
def elseForks : Option Body → List Fork
  | none => []
  | some b => .otherwise b :: b.forks
termination_by structural no => no

/-- The forks of statements one after the other. -/
def stmtsForks : List Stmt → List Fork
  | [] => []
  | s :: ss => s.forks ++ stmtsForks ss
termination_by structural ss => ss

end

/-- The forks of a declaration. -/
def Item.forks : Item → List Fork
  | .fn d => d.body.forks
  | .struct d => [.fields d]
  | .absent _ | .hollow _ _ => []

/-- The forks of a file. -/
def File.forks (f : File) : List Fork := f.items.flatMap Item.forks

/-! ## What the printer finds -/

section Found

variable (source : Bytes)

mutual

theorem Stmt.choices_eq : ∀ s : Stmt, s.choices source = s.forks.map (Fork.found source)
  | .block _ ss => stmtsChoices_eq ss
  | .cond _ _ yes no => by rw [Stmt.choices, Stmt.forks, List.map_append, yes.choices_eq, elseChoices_eq no]
  | .loop _ b => b.choices_eq
  | .expr _ _ | .ret _ _ | .brk _ | .bind _ _ _ _ _ | .empty _ | .absent _ | .hollow _ _ => rfl

theorem Body.choices_eq : ∀ b : Body, b.choices source = b.forks.map (Fork.found source)
  | .block _ ss => stmtsChoices_eq ss
  | .stray _ s => s.choices_eq

theorem elseChoices_eq : ∀ no : Option Body, elseChoices source no = (elseForks no).map (Fork.found source)
  | none => rfl
  | some b => by
    rw [elseChoices, elseForks, List.map_cons, b.choices_eq]
    rfl

theorem stmtsChoices_eq : ∀ ss : List Stmt, stmtsChoices source ss = (stmtsForks ss).map (Fork.found source)
  | [] => rfl
  | s :: ss => by rw [stmtsChoices, stmtsForks, List.map_append, s.choices_eq, stmtsChoices_eq ss]

end

theorem Item.choices_eq (i : Item) : i.choices source = i.forks.map (Fork.found source) := by
  cases i with
  | fn d => exact d.body.choices_eq source
  | _ => rfl

theorem File.choices_eq (f : File) : itemsChoices source f.items = f.forks.map (Fork.found source) := by
  rw [itemsChoices, File.forks, List.map_flatMap]
  exact List.flatMap_congr fun i _ => i.choices_eq source

end Found

/-! ## What is written -/

namespace Grammar

section Written

variable {source : Bytes} {nearest closed opened : Bool} {l : Lexeme} {ts : List Lexeme} {b : Body}

/-- No `else` is written before the `if` in a body that stands behind a colon. -/
theorem Block.not_written (derived : Block nearest ts b closed opened) (spaced : Spaced source (l :: ts)) (isColon : l.kind = .colon) :
    Fork.written source (.otherwise b) = false := by
  refine Bool.eq_false_iff.mpr fun joined => ?_
  cases derived with
  | @line _ s _ _ inner =>
    obtain ⟨_, single, isElseIf⟩ := Fork.written_block.mp joined
    cases single
    cases s with
    | cond span =>
      obtain ⟨m, us, rfl, isIf, place⟩ := inner.if_first spaced.tail.ordered
      rw [Fork.isElseIf, place, spaced.beside (List.prefix_append [l, m] us).isInfix (.inr isColon) isIf, isColon] at isElseIf
      cases isElseIf
    | _ => cases isElseIf
  | @indented first second _ _ isBreak isIndent inner =>
    obtain ⟨s, rfl, isElseIf⟩ := Fork.written_block.mp joined
    cases inner with
    | last inner =>
      cases s with
      | cond span =>
        obtain ⟨m, us, rfl, isIf, place⟩ := inner.if_first spaced.tail.tail.tail.left.ordered
        have below : Spaced source (first :: second :: m :: us) := spaced.tail.left
        rw [Fork.isElseIf, place, below.below (List.prefix_append [first, second, m] us).isInfix isBreak isIndent isIf] at isElseIf
        cases isElseIf
      | _ => cases isElseIf
    | more inner _ rest => exact absurd rfl rest.nonempty

/-- An `else` is written before the `if` right behind it. -/
theorem Statement.written {span : Span} {test : Expr} {yes : Body} {no : Option Body}
    (derived : Statement nearest ts (.cond span test yes no) closed opened) (spaced : Spaced source (l :: ts))
    (isElse : l.kind = .kwElse) : Parser.look ts = .kwIf ∧ Fork.isElseIf source (.cond span test yes no) = true := by
  obtain ⟨m, us, rfl, isIf, place⟩ := derived.if_first spaced.tail.ordered
  refine ⟨isIf, ?_⟩
  rw [Fork.isElseIf, place, spaced.beside (List.prefix_append [l, m] us).isInfix (.inl isElse) isIf, isElse]
  rfl

mutual

/-- Tokens choose what is written where they stand. -/
theorem Statement.chooses_written {closed opened : Bool} {ts : List Lexeme} {s : Stmt} :
    Statement nearest ts s closed opened → Spaced source ts → Chooses ts (s.forks.map (Fork.written source))
  | .only isIf cond isColon first, spaced => by
    have yes := first.chooses_written spaced.tail.right.tail
    rw [Stmt.forks, elseForks, List.append_nil]
    exact .condition isIf cond isColon yes
  | .both isIf cond isColon first _ isElse isColon' second, spaced => by
    have bodies := spaced.tail.right.tail
    have yes := first.chooses_written bodies.left
    have no := second.chooses_written bodies.right.tail.tail
    rw [Stmt.forks, elseForks, List.map_append, List.map_cons, second.not_written bodies.right.tail isColon']
    exact .condition isIf cond isColon (yes.append (.block isElse isColon' no))
  | .chain isIf cond isColon first _ isElse second, spaced => by
    have bodies := spaced.tail.right.tail
    have yes := first.chooses_written bodies.left
    have no := second.chooses_written bodies.right.tail
    obtain ⟨next, joined⟩ := second.written bodies.right isElse
    rw [Stmt.forks, elseForks, List.map_append, List.map_cons, Fork.written, joined, Body.forks, stmtsForks, stmtsForks, List.append_nil]
    exact .condition isIf cond isColon (yes.append (.chain isElse next no))
  | .bare isReturn, _ => .quiet (by simp [quiet_of_kind isReturn rfl])
  | .value isReturn inner, _ => .quiet (by simp [quiet_of_kind isReturn rfl, inner.quiet])
  | .leave isBreak, _ => .quiet (by simp [quiet_of_kind isBreak rfl])
  | .loop isLoop isColon inner, spaced => by
    rw [Stmt.forks]
    exact .cons (quiet_of_kind isLoop rfl) (.cons (quiet_of_kind isColon rfl) (inner.chooses_written spaced.tail.tail))
  | .bind isLet isName isColon isType isAssign inner, _ => .quiet (by
    simp [quiet_of_kind isLet rfl, quiet_of_kind isName rfl, quiet_of_kind isColon rfl, quiet_type isType,
      quiet_of_kind isAssign rfl, inner.quiet])
  | .empty isUnderscore, _ => .quiet (by simp [quiet_of_kind isUnderscore rfl])
  | .expr inner, _ => .quiet inner.quiet

theorem Block.chooses_written {closed opened : Bool} {ts : List Lexeme} {b : Body} :
    Block nearest ts b closed opened → Spaced source ts → Chooses ts (b.forks.map (Fork.written source))
  | .line inner, spaced => by
    rw [Body.forks, stmtsForks, stmtsForks, List.append_nil]
    exact inner.chooses_written spaced
  | .indented isBreak isIndent inner, spaced => by
    rw [Body.forks]
    exact .cons (quiet_of_kind isBreak rfl) (.cons (quiet_of_kind isIndent rfl) (inner.chooses_written spaced.tail.tail))

theorem Lines.chooses_written {ts : List Lexeme} {ss : List Stmt} :
    Lines nearest ts ss → Spaced source ts → Chooses ts ((stmtsForks ss).map (Fork.written source))
  | .last inner ends isDedent, spaced => by
    rw [stmtsForks, List.map_append]
    exact (inner.chooses_written spaced.left).append (.quiet (by simp [ends.quiet, quiet_of_kind isDedent rfl]))
  | .more inner ends rest, spaced => by
    rw [stmtsForks, List.map_append]
    exact (inner.chooses_written spaced.left).append
      ((Chooses.quiet ends.quiet).append (rest.chooses_written spaced.right.right))

end

theorem Declaration.chooses_written {i : Item} (derived : Declaration nearest ts i closed) (spaced : Spaced source ts) :
    Chooses ts (i.forks.map (Fork.written source)) := by
  cases derived with
  | fn isFun isName opens fields closes isArrow isType isColon inner =>
    exact .signature isFun isName opens fields closes isArrow isType isColon
      (inner.chooses_written spaced.tail.tail.tail.right.tail.tail.tail.tail)
  | @indented head name colon first second us params isType isName isColon isBreak isIndent fields =>
    have part : [name, colon] <:+: name :: colon :: first :: second :: us := (List.prefix_append [name, colon] _).isInfix
    have plain := spaced.tail.ahead part isName (.inr isColon)
    have some : params.isEmpty = false := by
      cases fields <;> rfl
    rw [Item.forks, List.map_singleton, Fork.written, plain, some]
    exact .struct isType isName (quiet_of_kind isColon rfl)
      (.cons (quiet_of_kind isBreak rfl) (.cons (quiet_of_kind isIndent rfl) (.quiet fields.quiet)))
  | @braced head name opening closing us params isType isName opens fields closes =>
    have part : [name, opening] <:+: name :: opening :: (us ++ [closing]) := (List.prefix_append [name, opening] _).isInfix
    have brace := spaced.tail.ahead part isName (.inl opens)
    have known : (opening.kind == .lbrace) = true := by
      rw [opens]
      rfl
    rw [Item.forks, List.map_singleton, Fork.written, brace, known, Bool.or_true, ← known]
    exact .struct isType isName (quiet_of_kind opens rfl) (.quiet (by simp [fields.quiet, quiet_of_kind closes rfl]))

theorem Declarations.chooses_written {is : List Item} (derived : Declarations nearest ts is) :
    Spaced source ts → Chooses ts ((is.flatMap Item.forks).map (Fork.written source)) := by
  induction derived with
  | none => exact fun _ => .nil
  | skip isBreak _ ih => exact fun spaced => .cons (quiet_of_kind isBreak rfl) (ih spaced.tail)
  | @more _ sep _ _ _ _ inner ends _ ih =>
    intro spaced
    have silent : Quiet sep := by
      obtain separator | ⟨rfl, -⟩ := ends
      · exact separator.quiet
      · exact quiet_nil
    rw [List.flatMap_cons, List.map_append]
    exact (inner.chooses_written spaced.left).append ((Chooses.quiet silent).append (ih spaced.right.right))

end Written

end Grammar

/-! ## The tokens of formatted text -/

section
variable {ts us : List Lexeme}

theorem Tidy.no_trailing (tidy : Tidy ts) : NoTrailingComma ts := by
  induction ts with
  | nil =>
    intro l m none
    cases List.infix_nil.mp none
  | cons x ts ih =>
    intro l m adjacent isComma
    obtain first | later := List.infix_cons_iff.mp adjacent
    · obtain ⟨rfl, us, rfl⟩ := List.cons_prefix_cons.mp first
      exact tidy.1 isComma
    · cases ts with
      | nil => cases List.infix_nil.mp later
      | cons y ts => exact ih tidy.2 l m later isComma

/-- Whether a comma trails shows in what the lexemes say. -/
theorem Tidy.of_bare : ∀ {ts us : List Lexeme}, Tidy ts → us.map Lexeme.bare? = ts.map Lexeme.bare? → Tidy us
  | [], us, _, same => by
    rw [List.map_eq_nil_iff.mp same]
    trivial
  | [l], us, tidy, same => by
    obtain ⟨m, _, rfl, first, none⟩ := List.map_eq_cons_iff.mp same
    obtain rfl := List.map_eq_nil_iff.mp none
    exact .cons (kind_of_bare first ▸ tidy) trivial
  | l :: l' :: ls, us, tidy, same => by
    obtain ⟨m, _, rfl, first, others⟩ := List.map_eq_cons_iff.mp same
    obtain ⟨m', ms, rfl, second, -⟩ := List.map_eq_cons_iff.mp others
    refine ⟨?_, tidy.2.of_bare others⟩
    rw [kind_of_bare first, kind_of_bare second]
    exact tidy.1

instance decidableTidy : (ls : List Lexeme) → Decidable (Tidy ls)
  | [] => inferInstanceAs (Decidable True)
  | [l] => inferInstanceAs (Decidable (l.kind ≠ .comma))
  | l :: m :: ls =>
    have := decidableTidy (m :: ls)
    inferInstanceAs (Decidable ((l.kind = .comma → m.kind ≠ .rparen ∧ m.kind ≠ .rbrace) ∧ Tidy (m :: ls)))

/-- No name of a source is the word `self`. -/
theorem names_proper {file : Nat} {source : Bytes} {l : Lexeme} (member : l ∈ lexemes file source) (isName : l.kind = .ident) :
    l.text ≠ "self" := by
  obtain ⟨before, behind, whole⟩ := List.mem_iff_append.mp member
  have run : Run file 0 ⟨0, source⟩ (lexemes file source) := lexemesFrom_run file (Nat.lt_succ_self _)
  obtain ⟨_, c, -, -, rfl, -⟩ := run.inline whole (by rw [isName]; rfl)
  intro isSelf
  have kind := (lexeme_name isName).kind
  rw [isSelf] at kind
  exact absurd kind (by decide)

theorem plain_of_part {file : Nat} {source : Bytes} (part : ts <:+: lexemes file source) (commas : NoTrailingComma ts) : Plain ts :=
  ⟨fun _ member => names_proper (part.subset member), commas⟩

end

/-- Formatting keeps the tokens, apart from line structure, exactly if the printer finds at every `else` and every struct
    what is written there, if the source parses, its names are ASCII and no comma trails. -/
theorem format_keeps_tokens_iff (file file' : Nat) (source : Bytes) (f : File) (parsed : parse (lexemes file source) = .ok f)
    (ascii : AsciiNames source (lexemes file source)) (commas : Tidy (lexemes file source)) :
    f.isPrintable = true ∧ (solid (lexemes file' (utf8 (f.format source))) = solid (lexemes file source) ↔
      ∀ fork ∈ f.forks, fork.found source = fork.written source) := by
  obtain ⟨ts, whole, derived⟩ := declarations_of_parse parsed
  obtain ⟨ls, is, printed, bare, chosen, tidy, read⟩ := items_reprint_tidy (reprints_of_parse parsed ascii)
  obtain ⟨-, us, stop, f', whole', same, run, derived', bare'⟩ := parse_of_bare printed (lexemes_of_pieces printed read file').2
  obtain ⟨vs, ends, -⟩ := declarations_of_parse run
  obtain ⟨rfl, stops⟩ := List.append_inj' (whole'.symm.trans ends) rfl
  obtain rfl := List.singleton_inj.mp stops
  have part : ts <:+: lexemes file source := whole ▸ (List.prefix_append ts _).isInfix
  have part' : us <:+: lexemes file' (utf8 (f.format source)) := whole' ▸ (List.prefix_append us _).isInfix
  have plain : Plain ts := plain_of_part part fun l m inside => commas.no_trailing l m (inside.trans part)
  have plain' : Plain us := plain_of_part part' (tidy.of_bare same).no_trailing
  have spaced : Spaced source ts := lexemes_spaced (whole ▸ List.prefix_append ts _) fun l member => (derived.proper l member).2
  refine ⟨(complete_of_parse parsed).printable, ?_⟩
  rw [whole, File.format, whole', solid_append, solid_append, solid_cons rfl, solid_cons rfl]
  calc solid us ++ Kind.eof :: solid [] = solid ts ++ Kind.eof :: solid []
    _ ↔ solid us = solid ts := List.append_left_inj _
    _ ↔ choices us = choices ts := solid_eq_iff derived derived' (bare'.trans bare) plain plain'
    _ ↔ f.forks.map (Fork.found source) = f.forks.map (Fork.written source) := by
      rw [choices_of_bare same, chosen.choices_eq, f.choices_eq, (derived.chooses_written spaced).choices_eq, File.forks]
    _ ↔ ∀ fork ∈ f.forks, fork.found source = fork.written source := List.map_inj_left

/-- Comments and white space around an `else if`, an `if` in an `else` block and fields in braces and on lines. -/
def remarked : Bytes :=
  utf8 "type P\t\x7bx:i8\x7d //\x7b\ntype Q: //\x7b\n\ty:i8\nfun f()->_:if a:_ else\tif b:_ else: //if\n\tif c:_ else:if d:_\n"

theorem format_keeps_tokens_remarked : ∃ f, parse (lexemes 0 remarked) = .ok f ∧ AsciiNames remarked (lexemes 0 remarked) ∧
    Tidy (lexemes 0 remarked) ∧ f.isPrintable = true ∧
      (solid (lexemes 1 (utf8 (f.format remarked))) = solid (lexemes 0 remarked) ↔
        ∀ fork ∈ f.forks, fork.found remarked = fork.written remarked) ∧
      f.forks.map (Fork.written remarked) = [true, false, true, false, false] := by
  have ascii : AsciiNames remarked (lexemes 0 remarked) := by
    rw [AsciiNames, remarked, utf8_ofList]
    decide +kernel
  have commas : Tidy (lexemes 0 remarked) := by
    rw [remarked, utf8_ofList]
    decide +kernel
  have written : (parse (lexemes 0 remarked)).toOption.map (fun f => f.forks.map (Fork.written remarked)) =
      some [true, false, true, false, false] := by
    rw [remarked, utf8_ofList]
    decide +kernel
  cases parsed : parse (lexemes 0 remarked) with
  | error e =>
    rw [parsed] at written
    cases written
  | ok f =>
    rw [parsed] at written
    obtain ⟨printable, keeps⟩ := format_keeps_tokens_iff 0 1 remarked f parsed ascii commas
    exact ⟨f, rfl, ascii, commas, printable, keeps, Option.some.inj written⟩

/-- A comment that ends in `else`, between the `else` and the `if` in its block. -/
def commented : Bytes := utf8 "fun f()->_:if a:_ else: //else\n\tif b:_\n"

/-- A carriage return between the name of a struct and the brace. -/
def returned : Bytes := utf8 "type P\r\x7bx:i8\x7d\n"

/-- A source with names of ASCII and without trailing commas has other tokens once it is printed. -/
def TokensChange (source : Bytes) : Prop :=
  AsciiNames source (lexemes 0 source) ∧ Tidy (lexemes 0 source) ∧
    ∃ f, parse (lexemes 0 source) = .ok f ∧ f.isPrintable = true ∧
      solid (lexemes 0 (utf8 (f.format source))) ≠ solid (lexemes 0 source)

theorem tokensChange {source : Bytes} (ascii : AsciiNames source (lexemes 0 source)) (tidy : Tidy (lexemes 0 source))
    (differs : (parse (lexemes 0 source)).toOption.any (fun f => f.isPrintable &&
      solid (lexemes 0 (utf8 (f.format source))) != solid (lexemes 0 source)) = true) : TokensChange source := by
  refine ⟨ascii, tidy, ?_⟩
  cases parsed : parse (lexemes 0 source) with
  | error e =>
    rw [parsed] at differs
    cases differs
  | ok f =>
    rw [parsed] at differs
    obtain ⟨printable, differs⟩ := Bool.and_eq_true_iff.mp differs
    exact ⟨f, rfl, printable, bne_iff_ne.mp differs⟩

/-- The `else` of the comment is taken for one that is joined to the `if`, and the brace is not found behind the carriage
    return, so that a colon is printed for it and the closing brace goes away. -/
theorem format_changes_tokens : TokensChange commented ∧ TokensChange returned := by
  have given : ∀ source ∈ [commented, returned], AsciiNames source (lexemes 0 source) ∧ Tidy (lexemes 0 source) := by
    unfold AsciiNames
    rw [commented, returned, utf8_ofList, utf8_ofList]
    decide +kernel
  have changes : ∀ source ∈ [commented, returned], (parse (lexemes 0 source)).toOption.any (fun f => f.isPrintable &&
      solid (lexemes 0 (utf8 (f.format source))) != solid (lexemes 0 source)) = true := by
    rw [commented, returned, utf8_ofList, utf8_ofList]
    decide +kernel
  have each : ∀ source ∈ [commented, returned], TokensChange source := fun source member =>
    tokensChange (given source member).1 (given source member).2 (changes source member)
  exact ⟨each _ (by simp), each _ (by simp)⟩

end PineLang
