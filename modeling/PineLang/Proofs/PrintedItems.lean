import PineLang.Proofs.PrintedStmts
import PineLang.Proofs.Relocation

/-!
Declarations as they are printed. A function or a struct reads as lexemes of the same declaration up
to spans, whether its fields were in braces or indented before (`Declaration.reprints`), and the empty
line between two declarations reads as nothing but the end of the first.
-/
namespace PineLang
open Lexer Grammar

/-! ## Fields -/

/-- The fixed text between the parts of a declaration. -/
theorem utf8_itemText : utf8 "fun " = utf8 "fun" ++ [0x20] ∧ utf8 ") -> " = [0x29, 0x20, 0x2D, 0x3E, 0x20] ∧
    utf8 "type " = utf8 "type" ++ [0x20] ∧ utf8 " \x7b\x7d\n" = [0x20, 0x7B, 0x7D, 0x0A] ∧
    utf8 " \x7d\n" = [0x20, 0x7D, 0x0A] ∧ utf8 ":\n" = [0x3A, 0x0A] := by
  decide +kernel

/-- A field is printed as text that reads as lexemes of the same field. -/
def Param.Reprints (p : Param) : Prop := ∃ ts, Field ts p ∧ Prints (utf8 (Printer.param p)) ts

namespace Grammar

variable {ts : List Lexeme} {p : Param} {ps : List Param}

theorem Field.reprints (derived : Field ts p) (spelled : ∀ l ∈ ts, l.Spelled) : p.Reprints := by
  refine ⟨ts, derived, ?_⟩
  obtain ⟨isName, isColon, isType⟩ := derived
  simp only [List.forall_mem_cons] at spelled
  have type := Prints.annotation spelled.2.2.1 isType
  simp only [Printer.param, utf8_append, utf8_exprText, List.append_assoc, List.cons_append, List.nil_append]
  exact .labelled spelled.1 spelled.2.1 isName isColon type.reads

theorem Params.reprints (derived : Params ts ps) (spelled : ∀ l ∈ ts, l.Spelled) : ∀ p ∈ ps, p.Reprints := by
  induction derived with
  | last field => exact List.forall_mem_singleton.mpr (field.reprints spelled)
  | more field _ _ ih =>
    simp only [List.forall_mem_append, List.forall_mem_cons] at spelled
    exact List.forall_mem_cons.mpr ⟨field.reprints spelled.1, ih spelled.2.2⟩

theorem ParamList.reprints (derived : ParamList ts ps) (spelled : ∀ l ∈ ts, l.Spelled) : ∀ p ∈ ps, p.Reprints := by
  cases derived with
  | none => exact List.forall_mem_nil _
  | some params => exact params.reprints spelled

theorem BracedFields.reprints (derived : BracedFields ts ps) (spelled : ∀ l ∈ ts, l.Spelled) : ∀ p ∈ ps, p.Reprints := by
  induction derived with
  | none => exact List.forall_mem_nil _
  | last field => exact List.forall_mem_singleton.mpr (field.reprints spelled)
  | more field _ _ ih =>
    simp only [List.forall_mem_append, List.forall_mem_cons] at spelled
    exact List.forall_mem_cons.mpr ⟨field.reprints spelled.1, ih spelled.2.2⟩

theorem FieldLines.reprints (derived : FieldLines ts ps) (spelled : ∀ l ∈ ts, l.Spelled) : ∀ p ∈ ps, p.Reprints := by
  induction derived with
  | last field =>
    rw [List.forall_mem_append] at spelled
    exact List.forall_mem_singleton.mpr (field.reprints spelled.1)
  | more field _ _ ih =>
    simp only [List.forall_mem_append] at spelled
    exact List.forall_mem_cons.mpr ⟨field.reprints spelled.1, ih spelled.2.2⟩

theorem Field.tidy (derived : Field ts p) : Tidy ts := by
  obtain ⟨isName, isColon, isType⟩ := derived
  exact .kind isName (by decide) (.kind isColon (by decide) (other_of_type isType))

theorem Field.first (derived : Field ts p) : ∃ l us, ts = l :: us ∧ startsExpr l.kind = true := by
  obtain ⟨isName, -, -⟩ := derived
  exact ⟨_, _, rfl, by rw [isName]; rfl⟩

theorem Params.first (derived : Params ts ps) : ∃ l us, ts = l :: us ∧ startsExpr l.kind = true := by
  cases derived with
  | last field => exact field.first
  | more field =>
    obtain ⟨l, us, rfl, starts⟩ := field.first
    exact ⟨l, _, rfl, starts⟩

/-- Only in braces a comma may trail. -/
theorem Params.tidy (derived : Params ts ps) : Tidy ts := by
  induction derived with
  | last field => exact field.tidy
  | more field _ rest ih => exact field.tidy.append (ih.comma rest.first)

theorem ParamList.tidy (derived : ParamList ts ps) : Tidy ts := by
  cases derived with
  | none => trivial
  | some params => exact params.tidy

theorem Params.braced (derived : Params ts ps) : BracedFields ts ps := by
  induction derived with
  | last field => exact .last field
  | more field isComma _ ih => exact .more field isComma ih

end Grammar

theorem params_reprint : ∀ {ps : List Param}, ps ≠ [] → (∀ p ∈ ps, p.Reprints) →
    ∃ ts, Params ts ps ∧ Prints (utf8 (Printer.params ps)) ts
  | [], nonempty, _ => absurd rfl nonempty
  | [p], _, reprints => by
    obtain ⟨ts, derived, prints⟩ := reprints p (List.mem_singleton.mpr rfl)
    refine ⟨ts, .last derived, ?_⟩
    rwa [Printer.params, List.map_singleton, String.intercalate_singleton]
  | p :: q :: ps, _, reprints => by
    obtain ⟨ts, derived, prints⟩ := reprints p (List.mem_cons_self ..)
    obtain ⟨us, others, prints'⟩ := params_reprint (List.cons_ne_nil q ps)
      fun r member => reprints r (List.mem_cons_of_mem p member)
    have comma : Reads Cut [0x2C] [fresh .comma] := .mark (spelled_fixed rfl _) rfl (by decide)
    refine ⟨ts ++ fresh .comma :: us, .more derived rfl others, ?_⟩
    have text : Printer.params (p :: q :: ps) = Printer.param p ++ (", " ++ Printer.params (q :: ps)) := by
      simp only [Printer.params, List.map_cons, String.intercalate_cons_cons, String.append_assoc]
    simp only [text, utf8_append, utf8_exprText]
    exact prints.append (comma.spaced prints'.reads) fun _ _ => cut_cons (by decide)

/-- One field on a line of its own in an indented struct. -/
def fieldLine (p : Param) : String := Printer.pad 1 ++ Printer.param p ++ "\n"

theorem fieldLine_reads {p : Param} {ts : List Lexeme} (prints : Prints (utf8 (Printer.param p)) ts) (old : Nat)
    (rest : Bytes) : pieces old (0x0A :: (utf8 (fieldLine p) ++ rest)) =
      mark .newLine "\n" :: (turn old 1 ++ (ts.map Lexeme.bare? ++ pieces 1 (0x0A :: rest))) := by
  simp only [fieldLine, utf8_append, utf8_stmtText, List.append_assoc, List.cons_append, List.nil_append]
  rw [pieces_line (prints.opens.append _), prints.reads 1 (0x0A :: rest) (cut_cons (by decide))]

theorem fieldLines_reprint : ∀ {ps : List Param}, ps ≠ [] → (∀ p ∈ ps, p.Reprints) →
    ∃ ts, FieldLines (ts ++ closing 1) ps ∧ Tidy ts ∧ ∀ old rest,
      pieces old (0x0A :: (utf8 (String.join (ps.map fieldLine)) ++ rest)) =
        mark .newLine "\n" :: (turn old 1 ++ (ts.map Lexeme.bare? ++ pieces 1 (0x0A :: rest)))
  | [], nonempty, _ => absurd rfl nonempty
  | [p], _, reprints => by
    obtain ⟨ts, derived, prints⟩ := reprints p (List.mem_singleton.mpr rfl)
    refine ⟨ts, .last derived (.line rfl) rfl, derived.tidy, fun old rest => ?_⟩
    rw [List.map_singleton, String.join_cons, String.join_nil, String.append_empty]
    exact fieldLine_reads prints old rest
  | p :: q :: ps, _, reprints => by
    obtain ⟨ts, derived, prints⟩ := reprints p (List.mem_cons_self ..)
    obtain ⟨us, others, tidy, remaining⟩ := fieldLines_reprint (List.cons_ne_nil q ps)
      fun r member => reprints r (List.mem_cons_of_mem p member)
    refine ⟨ts ++ (closing 0 ++ us), ?_, derived.tidy.append ((tidy_closing 0).append tidy), fun old rest => ?_⟩
    · have ends : Separator false [lineEnd] := .line rfl
      have lines := FieldLines.more derived ends others
      simpa only [closing, List.replicate_zero, List.append_assoc, List.cons_append, List.nil_append] using lines
    · rw [List.map_cons, String.join_cons, utf8_append, List.append_assoc, fieldLine_reads prints, remaining,
        List.map_append, List.map_append, map_closing 1 0]
      simp only [List.append_assoc, List.cons_append]

/-! ## Declarations -/

/-- A declaration is printed as text that reads as lexemes of the same declaration up to spans, which make the choices
    it was printed by and in which no comma trails. -/
structure Item.Reprints (source : Bytes) (i : Item) : Prop where
  derives : ∃ ls k i', Declaration true (ls ++ ending k) i' (k != 0) ∧ i'.bare = i.bare ∧ Chooses ls (i.choices source) ∧
    Tidy ls ∧ ∀ rest, pieces 0 (utf8 (Printer.item source i) ++ rest) = ls.map Lexeme.bare? ++ pieces k (0x0A :: rest)
  opens : Opens (utf8 (Printer.item source i))

section Items

variable {source : Bytes} {head name : Lexeme} {params : List Param}

/-- What stands between a function's parentheses. -/
theorem paramList_reprint (reprints : ∀ p ∈ params, p.Reprints) {bs : Bytes} {ls : List Lexeme} (closes : Reads Cut bs ls)
    (follows : ∀ rest, Cut rest → Cut (bs ++ rest)) :
    ∃ ts, ParamList ts params ∧ Reads Cut (utf8 (Printer.params params) ++ bs) (ts ++ ls) ∧
      ∀ rest, Cut rest → Apart (utf8 (Printer.params params) ++ bs ++ rest) := by
  cases params with
  | nil =>
    have none : utf8 (Printer.params []) = [] := by
      rw [Printer.params, List.map_nil, String.intercalate_nil, utf8_empty]
    rw [none]
    exact ⟨[], .none, closes, fun rest cut => (follows rest cut).apart⟩
  | cons p ps =>
    obtain ⟨ts, derived, prints⟩ := params_reprint (List.cons_ne_nil p ps) reprints
    refine ⟨ts, .some derived, prints.reads.append closes follows, fun rest _ => ?_⟩
    rw [List.append_assoc]
    exact (prints.opens.append _).apart

theorem Chooses.signature {opening closing arrow type colon : Lexeme} {ts ls : List Lexeme} {ref : TypeRef} {cs : List Bool}
    (isFun : head.kind = .kwFun) (isName : name.kind = .ident) (opens : opening.kind = .lparen) (list : ParamList ts params)
    (closes : closing.kind = .rparen) (isArrow : arrow.kind = .arrow) (isType : annotation? type = some ref)
    (isColon : colon.kind = .colon) (others : Chooses ls cs) :
    Chooses (head :: name :: opening :: (ts ++ closing :: arrow :: type :: colon :: ls)) cs := by
  have returns : Chooses (closing :: arrow :: type :: colon :: ls) cs := .cons (quiet_of_kind closes rfl)
    (.cons (quiet_of_kind isArrow rfl) (.cons (quiet_type isType) (.cons (quiet_of_kind isColon rfl) others)))
  have fields := (Chooses.quiet list.quiet).append returns
  exact .cons (quiet_of_kind isFun rfl) (.cons (quiet_of_kind isName rfl) (.cons (quiet_of_kind opens rfl) fields))

theorem Tidy.signature {opening closing arrow type colon : Lexeme} {ts ls : List Lexeme} {ref : TypeRef}
    (isFun : head.kind = .kwFun) (isName : name.kind = .ident) (opens : opening.kind = .lparen) (list : ParamList ts params)
    (closes : closing.kind = .rparen) (isArrow : arrow.kind = .arrow) (isType : annotation? type = some ref)
    (isColon : colon.kind = .colon) (others : Tidy ls) :
    Tidy (head :: name :: opening :: (ts ++ closing :: arrow :: type :: colon :: ls)) := by
  have returns : Tidy (closing :: arrow :: type :: colon :: ls) :=
    .kind closes (by decide) (.kind isArrow (by decide) (.cons (other_of_type isType) (.kind isColon (by decide) others)))
  exact .kind isFun (by decide) (.kind isName (by decide) (.kind opens (by decide) (list.tidy.append returns)))

theorem fn_reprints {opening closing arrow type colon : Lexeme} {ref : TypeRef} {body : Body} {span : Span}
    (isFun : head.kind = .kwFun) (isName : name.kind = .ident) (opens : opening.kind = .lparen)
    (closes : closing.kind = .rparen) (isArrow : arrow.kind = .arrow) (isType : annotation? type = some ref)
    (isColon : colon.kind = .colon)
    (spelled : head.Spelled ∧ name.Spelled ∧ opening.Spelled ∧ closing.Spelled ∧ arrow.Spelled ∧ type.Spelled ∧ colon.Spelled)
    (fields : ∀ p ∈ params, p.Reprints) (inner : body.Reprints source) :
    (Item.fn ⟨name.text, name.span, params, ref, body, span⟩).Reprints source := by
  obtain ⟨spelled₁, spelled₂, spelled₃, spelled₄, spelled₅, spelled₆, spelled₇⟩ := spelled
  obtain ⟨ss, rfl, nonempty, reprints⟩ := inner
  obtain ⟨us, k, block, leads, chosen, tidy⟩ := body_reprint nonempty reprints
  have word : Prints (utf8 "fun") [head] := .fixedWord spelled₁ isFun (by decide) rfl
  have left : Reads Apart [0x28] [opening] := .sign spelled₃ opens (by decide)
  have right : Reads Cut [0x29] [closing] := .mark spelled₄ closes (by decide)
  have arrows : Reads Cut [0x2D, 0x3E] [arrow] := .mark spelled₅ isArrow (by decide)
  have colons : Reads Cut [0x3A] [colon] := .mark spelled₇ isColon (by decide)
  have returns := (Prints.annotation spelled₆ isType).append colons fun _ _ => cut_cons (by decide)
  have behind := right.spaced (arrows.spaced returns.reads)
  obtain ⟨ts, list, between, apart⟩ := paramList_reprint fields behind fun _ _ => cut_cons (by decide)
  have called := (Prints.name spelled₂ isName).append (left.append between apart) fun _ _ => cut_cons (by decide)
  have header : Prints _ _ := ⟨word.reads.spaced called.reads, word.opens.append _⟩
  have text : utf8 (Printer.item source (.fn ⟨name.text, name.span, params, ref, .block (Parser.stmtsSpan ss) ss, span⟩)) =
      (utf8 "fun" ++ 0x20 :: (utf8 name.text ++ ([0x28] ++ (utf8 (Printer.params params) ++
        ([0x29] ++ 0x20 :: ([0x2D, 0x3E] ++ 0x20 :: (utf8 ref.ty.text ++ [0x3A]))))))) ++
          0x0A :: utf8 (Printer.stmts source (0 + 1) ss) := by
    simp only [Printer.item, utf8_append, utf8_itemText, utf8_exprText, utf8_stmtText, utf8_body, List.append_assoc,
      List.cons_append, List.nil_append]
  refine ⟨⟨head :: name :: opening :: (ts ++ closing :: arrow :: type :: colon :: us), k + 1,
    .fn ⟨name.text, name.span, params, ref, _, head.span.cover (Parser.stmtsSpan ss)⟩, ?_, rfl, ?_,
    .signature isFun isName opens list closes isArrow isType isColon tidy, ?_⟩, ?_⟩
  · simp only [List.cons_append, List.append_assoc]
    exact .fn isFun isName opens list closes isArrow isType isColon block
  · exact .signature isFun isName opens list closes isArrow isType isColon chosen
  · intro rest
    rw [text]
    have read := leads.header header 0 rest
    simpa only [List.cons_append, List.nil_append, List.append_assoc, Nat.zero_add] using read
  · rw [text]
    exact header.opens.append _

/-- A struct in braces. -/
theorem braced_reprints {ts : List Lexeme} {bs : Bytes} {span : Span} (isType : head.kind = .kwType)
    (isName : name.kind = .ident) (spelled : head.Spelled ∧ name.Spelled) (fields : BracedFields ts params) (neat : Tidy ts)
    (brace : Printer.braces source ⟨name.text, name.span, params, span⟩ = true)
    (inside : Reads Cut ([0x7B] ++ bs) (fresh .lbrace :: (ts ++ [fresh .rbrace])))
    (text : utf8 (Printer.item source (.struct ⟨name.text, name.span, params, span⟩)) =
      utf8 "type " ++ (utf8 name.text ++ 0x20 :: ([0x7B] ++ (bs ++ [0x0A])))) :
    (Item.struct ⟨name.text, name.span, params, span⟩).Reprints source := by
  have word : Prints (utf8 "type") [head] := .fixedWord spelled.1 isType (by decide) rfl
  have called := (Prints.name spelled.2 isName).reads.spaced inside
  have whole : Prints _ _ := ⟨word.reads.spaced called, word.opens.append _⟩
  simp only [utf8_itemText, List.append_assoc, List.cons_append, List.nil_append] at text
  refine ⟨⟨head :: name :: fresh .lbrace :: (ts ++ [fresh .rbrace]), 0,
    .struct ⟨name.text, name.span, params, head.span.cover (fresh .rbrace).span⟩, ?_, rfl, ?_, ?_, ?_⟩, ?_⟩
  · rw [ending, List.append_nil]
    exact .braced isType isName rfl fields rfl
  · rw [Item.choices, brace]
    exact .struct isType isName rfl (.quiet (by simp [fields.quiet, fresh, isQuiet, Lexeme.kind, Lexeme.toToken]))
  · exact .kind isType (by decide) (.kind isName (by decide) (.cons (by decide) (neat.append (.single rfl (by decide)))))
  · intro rest
    have read := Leads.line whole 0 rest
    simpa only [text, List.cons_append, List.nil_append, List.append_assoc, Nat.zero_add] using read
  · rw [text]
    exact word.opens.append _

theorem struct_reprints {span : Span} (isType : head.kind = .kwType) (isName : name.kind = .ident)
    (spelled : head.Spelled ∧ name.Spelled) (fields : ∀ p ∈ params, p.Reprints) :
    (Item.struct ⟨name.text, name.span, params, span⟩).Reprints source := by
  have left : Reads Apart [0x7B] [fresh .lbrace] := .sign (spelled_fixed rfl _) rfl (by decide)
  have right : Reads Cut [0x7D] [fresh .rbrace] := .mark (spelled_fixed rfl _) rfl (by decide)
  by_cases none : params = []
  · subst none
    refine braced_reprints isType isName spelled .none trivial rfl (left.append right fun _ _ => apart_cons (by decide)) ?_
    simp only [Printer.item, List.isEmpty_nil, if_true, utf8_append, utf8_itemText, List.append_assoc, List.cons_append,
      List.nil_append]
  · have some : params.isEmpty = false := by simpa using none
    by_cases brace : Printer.braceAt source name.span.stop = true
    · obtain ⟨ts, derived, prints⟩ := params_reprint none fields
      have closed := (prints.append right.blank fun _ _ => cut_cons (by decide)).reads.blank
      refine braced_reprints isType isName spelled derived.braced derived.tidy (by rw [Printer.braces, brace, Bool.or_true])
        (left.append closed fun _ _ => apart_cons (by decide)) ?_
      simp only [Printer.item, some, brace, Bool.false_eq_true, if_false, if_true, utf8_append, utf8_itemText, utf8_exprText,
        List.append_assoc, List.cons_append, List.nil_append]
    · obtain ⟨ts, derived, tidy, reads⟩ := fieldLines_reprint none fields
      have word : Prints (utf8 "type") [head] := .fixedWord spelled.1 isType (by decide) rfl
      have colons : Reads Cut [0x3A] [fresh .colon] := .mark (spelled_fixed rfl _) rfl (by decide)
      have called := (Prints.name spelled.2 isName).append colons fun _ _ => cut_cons (by decide)
      have header : Prints _ _ := ⟨word.reads.spaced called.reads, word.opens.append _⟩
      have text : utf8 (Printer.item source (.struct ⟨name.text, name.span, params, span⟩)) =
          (utf8 "type" ++ 0x20 :: (utf8 name.text ++ [0x3A])) ++ 0x0A :: utf8 (String.join (params.map fieldLine)) := by
        simp only [Printer.item, some, brace, Bool.false_eq_true, if_false, utf8_append, utf8_itemText, List.append_assoc,
          List.cons_append, List.nil_append]
        rfl
      refine ⟨⟨head :: name :: fresh .colon :: lineEnd :: bodyStart :: ts, 1, .struct ⟨name.text, name.span, params,
        head.span.cover ((params.getLast?.map (·.span)).getD {})⟩, ?_, rfl, ?_, ?_, ?_⟩, ?_⟩
      · exact .indented isType isName rfl rfl rfl derived
      · have plain : Printer.braces source ⟨name.text, name.span, params, span⟩ = false := by
          rw [Printer.braces, some, Bool.eq_false_iff.mpr brace]
          rfl
        have silent := (quiet_append.mp derived.quiet).1
        rw [Item.choices, plain]
        exact .struct isType isName rfl (.cons rfl (.cons rfl (.quiet silent)))
      · have body : Tidy (lineEnd :: bodyStart :: ts) := .cons (by decide) (.cons (by decide) tidy)
        exact .kind isType (by decide) (.kind isName (by decide) (.cons (by decide) body))
      · intro rest
        have read := header.reads 0 (0x0A :: (utf8 (String.join (params.map fieldLine)) ++ rest)) (cut_cons (by decide))
        rw [reads 0 rest] at read
        rw [text, List.append_assoc]
        exact read
      · rw [text]
        exact header.opens.append _

end Items

namespace Grammar

/-- The printed text of a declaration reads as lexemes of the same declaration up to spans. -/
theorem Declaration.reprints {source : Bytes} {ts : List Lexeme} {i : Item} {closed : Bool}
    (derived : Declaration true ts i closed) (spelled : ∀ l ∈ ts, l.Spelled) : i.Reprints source := by
  cases derived with
  | fn isFun isName opens fields closes isArrow isType isColon inner =>
    simp only [List.forall_mem_append, List.forall_mem_cons] at spelled
    obtain ⟨spelled₁, spelled₂, spelled₃, listed, spelled₄, spelled₅, spelled₆, spelled₇, indented⟩ := spelled
    exact fn_reprints isFun isName opens closes isArrow isType isColon
      ⟨spelled₁, spelled₂, spelled₃, spelled₄, spelled₅, spelled₆, spelled₇⟩ (fields.reprints listed)
      (inner.reprints indented)
  | indented isType isName _ _ _ fields =>
    simp only [List.forall_mem_cons] at spelled
    exact struct_reprints isType isName ⟨spelled.1, spelled.2.1⟩ (fields.reprints spelled.2.2.2.2.2)
  | braced isType isName _ fields _ =>
    simp only [List.forall_mem_append, List.forall_mem_cons] at spelled
    exact struct_reprints isType isName ⟨spelled.1, spelled.2.1⟩ (fields.reprints spelled.2.2.2.1)

theorem Declarations.reprints {source : Bytes} {ts : List Lexeme} {is : List Item} (derived : Declarations true ts is)
    (spelled : ∀ l ∈ ts, l.Spelled) : ∀ i ∈ is, i.Reprints source := by
  induction derived with
  | none => exact List.forall_mem_nil _
  | skip _ _ ih =>
    rw [List.forall_mem_cons] at spelled
    exact ih spelled.2
  | more inner _ _ ih =>
    simp only [List.forall_mem_append] at spelled
    exact List.forall_mem_cons.mpr ⟨inner.reprints spelled.1, ih spelled.2.2⟩

end Grammar

end PineLang
