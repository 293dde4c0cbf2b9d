import PineLang.Proofs.SpelledTokens

/-!
Expressions as they are printed. No parentheses are added and none are dropped, so the printed text
reads as the lexemes of the expression again, less the commas that trailed in argument lists, and
these lexemes derive the very same tree (`Expression.reprints`).
-/
namespace PineLang
open Lexer

namespace Lexer

/-! ## Putting text together -/

theorem cut_cons {b : UInt8} {tail : Bytes} (ends : b ∈ ([0x20, 0x0A, 0x28, 0x29, 0x2C, 0x3A] : Bytes)) : Cut (b :: tail) := by
  refine ⟨b, tail, rfl, List.mem_append_left [0x2E] ends, ?_⟩
  rintro rfl
  exact absurd ends (by decide)

theorem cut_point {bs rest : Bytes} (isWord : IsWord bs) : Cut (0x2E :: bs ++ rest) := by
  obtain ⟨b, tail, rfl, starts, -⟩ := isWord
  refine ⟨0x2E, b :: tail ++ rest, rfl, by decide, ?_⟩
  rintro _ _ ⟨⟩
  refine Bool.eq_false_iff.mpr fun isDigit => ?_
  have other := (decimal_classes isDigit).1
  rw [starts, Bool.true_or] at other
  cases other

theorem apart_cons {b : UInt8} {tail : Bytes} (other : b ≠ 0x3E ∧ b ≠ 0x3D ∧ b ≠ 0x2F) : Apart (b :: tail) :=
  ⟨b, tail, rfl, other⟩

section Text

variable {as bs : Bytes} {l : Lexeme} {ls ms : List Lexeme}

theorem Prints.append (first : Prints as ls) (second : Reads Cut bs ms) (fits : ∀ rest, Cut rest → Cut (bs ++ rest)) :
    Prints (as ++ bs) (ls ++ ms) :=
  ⟨first.reads.append second fits, first.opens.append bs⟩

/-- An operator before an operand. -/
theorem Reads.before (sign : Reads Apart as [l]) (operand : Prints bs ms) : Reads Cut (as ++ bs) (l :: ms) :=
  sign.append operand.reads fun rest _ => (operand.opens.append rest).apart

/-- A punctuation mark or an operator before text that starts neither. -/
theorem Reads.mark {k : Kind} (spelled : l.Spelled) (isKind : l.kind = k) (isSign : (k, bs) ∈ signs) : Reads Cut bs [l] :=
  (Reads.sign spelled isKind isSign).mono fun _ => Cut.apart

/-- A word or an operator before a blank. -/
theorem Reads.spaced (word : Reads Cut as ls) (rest : Reads Cut bs ms) : Reads Cut (as ++ 0x20 :: bs) (ls ++ ms) :=
  word.append rest.blank fun _ _ => cut_cons (by decide)

/-- A name, a colon and what it stands for. -/
theorem Prints.labelled {name colon : Lexeme} (label : name.Spelled) (spelled : colon.Spelled) (isName : name.kind = .ident)
    (isColon : colon.kind = .colon) (value : Reads Cut bs ms) :
    Prints (utf8 name.text ++ 0x3A :: 0x20 :: bs) (name :: colon :: ms) := by
  have colons : Reads Cut [0x3A] [colon] := .mark spelled isColon (by decide)
  exact (Prints.name label isName).append (colons.spaced value) fun _ _ => cut_cons (by decide)

end Text

/-- The fixed text between the parts of an expression. -/
theorem utf8_exprText : utf8 " = " = [0x20, 0x3D, 0x20] ∧ utf8 "(" = [0x28] ∧ utf8 ")" = [0x29] ∧ utf8 "." = [0x2E] ∧
    utf8 " " = [0x20] ∧ utf8 ", " = [0x2C, 0x20] ∧ utf8 ": " = [0x3A, 0x20] ∧ utf8 " \x7b\x7d" = [0x20, 0x7B, 0x7D] ∧
    utf8 " \x7b " = [0x20, 0x7B, 0x20] ∧ utf8 " \x7d" = [0x20, 0x7D] := by
  decide +kernel

end Lexer

theorem exprTexts_cons (x y : Expr) (rest : List Expr) :
    exprTexts (x :: y :: rest) = x.text ++ (", " ++ exprTexts (y :: rest)) := by
  simp only [exprTexts, moreExprTexts, String.append_assoc]

theorem fieldTexts_cons (f g : FieldInit) (rest : List FieldInit) :
    fieldTexts (f :: g :: rest) = f.text ++ (", " ++ fieldTexts (g :: rest)) := by
  simp only [fieldTexts, moreFieldTexts, String.append_assoc]

/-! ## Commas -/

/-- Behind every comma stands something that is not a closing bracket. -/
def Tidy : List Lexeme → Prop
  | [] => True
  | [l] => l.kind ≠ .comma
  | l :: m :: ls => (l.kind = .comma → m.kind ≠ .rparen ∧ m.kind ≠ .rbrace) ∧ Tidy (m :: ls)

namespace Tidy

variable {l : Lexeme} {ts us : List Lexeme}

theorem cons (other : l.kind ≠ .comma) (tidy : Tidy ts) : Tidy (l :: ts) := by
  cases ts with
  | nil => exact other
  | cons => exact ⟨fun isComma => absurd isComma other, tidy⟩

theorem kind {k : Kind} (isKind : l.kind = k) (other : k ≠ .comma) (tidy : Tidy ts) : Tidy (l :: ts) :=
  tidy.cons (isKind ▸ other)

theorem single {k : Kind} (isKind : l.kind = k) (other : k ≠ .comma) : Tidy [l] := kind isKind other trivial

theorem append : ∀ {ts : List Lexeme}, Tidy ts → Tidy us → Tidy (ts ++ us)
  | [], _, second => second
  | [_], first, second => second.cons first
  | _ :: _ :: _, first, second => ⟨first.1, append first.2 second⟩

/-- A comma before what can start an expression. -/
theorem comma (starts : ∃ m vs, us = m :: vs ∧ Grammar.startsExpr m.kind = true) (tidy : Tidy us) : Tidy (l :: us) := by
  obtain ⟨m, vs, rfl, starts⟩ := starts
  refine ⟨fun _ => ⟨?_, ?_⟩, tidy⟩
  all_goals
    intro closes
    rw [closes] at starts
    cases starts

end Tidy

namespace Grammar

theorem other_of_joiner {k : Kind} {op : Joiner} (isOp : k.joiner? = some op) : k ≠ .comma := by
  rintro rfl
  cases isOp

theorem other_of_unary {k : Kind} {op : UnaryOp} (isOp : k.unary? = some op) : k ≠ .comma := by
  rintro rfl
  cases isOp

theorem other_of_leaf {l : Lexeme} {e : Expr} (isLeaf : leaf? l = some e) : l.kind ≠ .comma := by
  intro isComma
  simp [leaf?, isComma] at isLeaf

theorem other_of_type {l : Lexeme} {ref : TypeRef} (isType : annotation? l = some ref) : l.kind ≠ .comma := by
  intro isComma
  simp [annotation?, isComma, Kind.primitive?] at isType

theorem Arguments.first {ts : List Lexeme} {e : Expr} {es : List Expr} (derived : Arguments ts (e :: es)) :
    ∃ l us, ts = l :: us ∧ startsExpr l.kind = true := by
  cases derived with
  | last arg => exact arg.first
  | more arg =>
    obtain ⟨l, us, rfl, starts⟩ := arg.first
    exact ⟨l, _, rfl, starts⟩

theorem Inits.first {ts : List Lexeme} {f : FieldInit} {fs : List FieldInit} (derived : Inits ts (f :: fs)) :
    ∃ l us, ts = l :: us ∧ startsExpr l.kind = true := by
  cases derived with
  | last isName => exact ⟨_, _, rfl, by rw [isName]; rfl⟩
  | more isName => exact ⟨_, _, rfl, by rw [isName]; rfl⟩

mutual

/-- The printed text of an expression reads as lexemes of the same expression. -/
theorem Expression.reprints {least : Nat} {ts : List Lexeme} {e : Expr} : Expression least ts e →
    (∀ l ∈ ts, l.Spelled) → ∃ us, Expression least us e ∧ Tidy us ∧ Prints (utf8 e.text) us
  | .operand inner, spelled => by
    obtain ⟨us, derived, tidy, prints⟩ := inner.reprints spelled
    exact ⟨us, .operand derived, tidy, prints⟩
  | @Expression.binary _ _ _ _ _ sign _ lhs isOp bound rhs, spelled => by
    simp only [List.forall_mem_append, List.forall_mem_cons] at spelled
    obtain ⟨us, first, tidy, left⟩ := lhs.reprints spelled.1
    obtain ⟨vs, second, tidy', right⟩ := rhs.reprints spelled.2.2
    have joined := ((Reads.joiner spelled.2.1 isOp).spaced right.reads).blank
    refine ⟨us ++ sign :: vs, .binary first isOp bound second, tidy.append (tidy'.cons (other_of_joiner isOp)), ?_⟩
    simp only [Expr.text, utf8_append, utf8_exprText, List.append_assoc, List.cons_append, List.nil_append]
    exact left.append joined fun _ _ => cut_cons (by decide)
  | @Expression.assign _ _ _ _ _ sign lhs isTarget isAssign bound rhs, spelled => by
    simp only [List.forall_mem_append, List.forall_mem_cons] at spelled
    obtain ⟨us, first, tidy, left⟩ := lhs.reprints spelled.1
    obtain ⟨vs, second, tidy', right⟩ := rhs.reprints spelled.2.2
    have equals : Reads Cut [0x3D] [sign] := .mark spelled.2.1 isAssign (by decide)
    refine ⟨us ++ sign :: vs, .assign first isTarget isAssign bound second,
      tidy.append (tidy'.kind isAssign (by decide)), ?_⟩
    simp only [Expr.text, utf8_append, utf8_exprText, List.append_assoc, List.cons_append, List.nil_append]
    exact left.append (equals.spaced right.reads).blank fun _ _ => cut_cons (by decide)

theorem Prefixed.reprints {ts : List Lexeme} {e : Expr} : Prefixed ts e →
    (∀ l ∈ ts, l.Spelled) → ∃ us, Prefixed us e ∧ Tidy us ∧ Prints (utf8 e.text) us
  | .plain inner, spelled => by
    obtain ⟨us, derived, tidy, prints⟩ := inner.reprints spelled
    exact ⟨us, .plain derived, tidy, prints⟩
  | @Prefixed.sign sign _ _ _ isOp inner, spelled => by
    rw [List.forall_mem_cons] at spelled
    obtain ⟨us, derived, tidy, prints⟩ := inner.reprints spelled.2
    obtain ⟨reads, opens⟩ := Reads.unary spelled.1 isOp
    refine ⟨sign :: us, .sign isOp derived, tidy.cons (other_of_unary isOp), ?_⟩
    simp only [Expr.text, utf8_append]
    exact ⟨reads.before prints, opens.append _⟩

theorem Postfixed.reprints {ts : List Lexeme} {e : Expr} : Postfixed ts e →
    (∀ l ∈ ts, l.Spelled) → ∃ us, Postfixed us e ∧ Tidy us ∧ Prints (utf8 e.text) us
  | .plain inner, spelled => by
    obtain ⟨us, derived, tidy, prints⟩ := inner.reprints spelled
    exact ⟨us, .plain derived, tidy, prints⟩
  | @Postfixed.call _ _ _ _ opening closing callee opens inner closes, spelled => by
    simp only [List.forall_mem_append, List.forall_mem_cons] at spelled
    obtain ⟨us, first, tidy, head⟩ := callee.reprints spelled.1
    obtain ⟨vs, second, tidy', between⟩ := inner.reprints spelled.2.2.1
    have left : Reads Apart [0x28] [opening] := .sign spelled.2.1 opens (by decide)
    have right : Reads Cut [0x29] [closing] := .mark spelled.2.2.2.1 closes (by decide)
    refine ⟨us ++ opening :: (vs ++ [closing]), .call first opens second closes,
      tidy.append ((tidy'.append (.single closes (by decide))).kind opens (by decide)), ?_⟩
    simp only [Expr.text, utf8_append, utf8_exprText, List.append_assoc, List.cons_append, List.nil_append]
    refine head.append ?_ fun _ _ => cut_cons (by decide)
    obtain ⟨rfl, rfl⟩ | args := between
    · rw [exprTexts, utf8_empty]
      exact left.append right fun _ _ => apart_cons (by decide)
    · exact left.before (args.append right fun _ _ => cut_cons (by decide))
  | @Postfixed.member _ _ point field target isPoint isName, spelled => by
    simp only [List.forall_mem_append, List.forall_mem_cons] at spelled
    obtain ⟨us, derived, tidy, head⟩ := target.reprints spelled.1
    have dot : Reads Apart [0x2E] [point] := .sign spelled.2.1 isPoint (by decide)
    have name := Prints.name spelled.2.2.1 isName
    refine ⟨us ++ [point, field], .member derived isPoint isName,
      tidy.append (.kind isPoint (by decide) (.single isName (by decide))), ?_⟩
    simp only [Expr.text, utf8_append, utf8_exprText, List.append_assoc, List.cons_append, List.nil_append]
    exact head.append (dot.before name) fun _ _ => cut_point (isWord_ident spelled.2.2.1 isName)

theorem Primary.reprints {ts : List Lexeme} {e : Expr} : Primary ts e →
    (∀ l ∈ ts, l.Spelled) → ∃ us, Primary us e ∧ Tidy us ∧ Prints (utf8 e.text) us
  | @Primary.leaf l _ isLeaf, spelled =>
    ⟨[l], .leaf isLeaf, other_of_leaf isLeaf, .leaf (spelled l (List.mem_singleton.mpr rfl)) isLeaf⟩
  | @Primary.group _ _ opening closing opens inner closes, spelled => by
    simp only [List.forall_mem_append, List.forall_mem_cons] at spelled
    obtain ⟨us, derived, tidy, prints⟩ := inner.reprints spelled.2.1
    have left : Reads Apart [0x28] [opening] := .sign spelled.1 opens (by decide)
    have right : Reads Cut [0x29] [closing] := .mark spelled.2.2.1 closes (by decide)
    refine ⟨opening :: (us ++ [closing]), .group opens derived closes,
      (tidy.append (.single closes (by decide))).kind opens (by decide), ?_⟩
    simp only [Expr.text, utf8_append, utf8_exprText, List.cons_append, List.nil_append]
    exact ⟨left.before (prints.append right fun _ _ => cut_cons (by decide)), 0x28, _, rfl, rfl⟩
  | @Primary.literal name opening closing _ fields isName opens inner closes, spelled => by
    simp only [List.forall_mem_append, List.forall_mem_cons] at spelled
    obtain ⟨us, derived, tidy, between⟩ := inner.reprints spelled.2.2.1
    have left : Reads Apart [0x7B] [opening] := .sign spelled.2.1 opens (by decide)
    have right : Reads Cut [0x7D] [closing] := .mark spelled.2.2.2.1 closes (by decide)
    refine ⟨name :: opening :: (us ++ [closing]), .literal isName opens derived closes,
      ((tidy.append (.single closes (by decide))).kind opens (by decide)).kind isName (by decide), ?_⟩
    have head := Prints.name spelled.1 isName
    obtain ⟨rfl, rfl⟩ | prints := between
    · simp only [Expr.text, List.isEmpty_nil, if_true, utf8_append, utf8_exprText]
      exact head.append (left.append right fun _ _ => apart_cons (by decide)).blank fun _ _ => cut_cons (by decide)
    · have some : fields.isEmpty = false := by
        cases fields with
        | nil =>
          obtain ⟨_, _, none, _⟩ := prints.opens
          rw [fieldTexts, utf8_empty] at none
          cases none
        | cons => rfl
      simp only [Expr.text, some, Bool.false_eq_true, if_false, utf8_append, utf8_exprText, List.append_assoc,
        List.cons_append, List.nil_append]
      have closed := (prints.append right.blank fun _ _ => cut_cons (by decide)).reads.blank
      exact head.append (left.append closed fun _ _ => apart_cons (by decide)).blank fun _ _ => cut_cons (by decide)

theorem Arguments.reprints {ts : List Lexeme} {es : List Expr} : Arguments ts es → (∀ l ∈ ts, l.Spelled) →
    ∃ us, Arguments us es ∧ Tidy us ∧ (es = [] ∧ us = [] ∨ Prints (utf8 (exprTexts es)) us)
  | .none, _ => ⟨[], .none, trivial, .inl ⟨rfl, rfl⟩⟩
  | .last arg, spelled => by
    obtain ⟨us, derived, tidy, prints⟩ := arg.reprints spelled
    refine ⟨us, .last derived, tidy, .inr ?_⟩
    simpa only [exprTexts, moreExprTexts, String.append_empty] using prints
  | @Arguments.more _ _ _ es comma arg isComma rest, spelled => by
    simp only [List.forall_mem_append, List.forall_mem_cons] at spelled
    obtain ⟨us, first, tidy, prints⟩ := arg.reprints spelled.1
    obtain ⟨vs, second, tidy', others⟩ := rest.reprints spelled.2.2
    cases es with
    | nil =>
      -- The comma trailed, and is not printed.
      refine ⟨us, .last first, tidy, .inr ?_⟩
      simpa only [exprTexts, moreExprTexts, String.append_empty] using prints
    | cons e es =>
      have more := others.resolve_left (by simp)
      have sep : Reads Cut [0x2C] [comma] := .mark spelled.2.1 isComma (by decide)
      refine ⟨us ++ comma :: vs, .more first isComma second, tidy.append (tidy'.comma second.first), .inr ?_⟩
      rw [exprTexts_cons, utf8_append, utf8_append, utf8_exprText.2.2.2.2.2.1]
      exact prints.append (sep.spaced more.reads) fun _ _ => cut_cons (by decide)

theorem Inits.reprints {ts : List Lexeme} {fs : List FieldInit} : Inits ts fs → (∀ l ∈ ts, l.Spelled) →
    ∃ us, Inits us fs ∧ Tidy us ∧ (fs = [] ∧ us = [] ∨ Prints (utf8 (fieldTexts fs)) us)
  | .none, _ => ⟨[], .none, trivial, .inl ⟨rfl, rfl⟩⟩
  | @Inits.last name colon _ e isName isColon value, spelled => by
    simp only [List.forall_mem_cons] at spelled
    obtain ⟨us, derived, tidy, prints⟩ := value.reprints spelled.2.2
    have tidy := (tidy.kind isColon (by decide)).kind isName (by decide)
    refine ⟨name :: colon :: us, .last isName isColon derived, tidy, .inr ?_⟩
    simp only [fieldTexts, moreFieldTexts, FieldInit.text, String.append_empty, utf8_append, utf8_exprText,
      List.append_assoc]
    exact .labelled spelled.1 spelled.2.1 isName isColon prints.reads
  | @Inits.more name colon comma _ _ e fs isName isColon value isComma rest, spelled => by
    simp only [List.forall_mem_append, List.forall_mem_cons] at spelled
    obtain ⟨us, first, tidy, prints⟩ := value.reprints spelled.2.2.1
    obtain ⟨vs, second, tidy', others⟩ := rest.reprints spelled.2.2.2.2
    have tidy := (tidy.kind isColon (by decide)).kind isName (by decide)
    cases fs with
    | nil =>
      refine ⟨name :: colon :: us, .last isName isColon first, tidy, .inr ?_⟩
      simp only [fieldTexts, moreFieldTexts, FieldInit.text, String.append_empty, utf8_append, utf8_exprText,
        List.append_assoc]
      exact .labelled spelled.1 spelled.2.1 isName isColon prints.reads
    | cons f fs =>
      have more := others.resolve_left (by simp)
      have sep : Reads Cut [0x2C] [comma] := .mark spelled.2.2.2.1 isComma (by decide)
      have values := prints.append (sep.spaced more.reads) fun _ _ => cut_cons (by decide)
      refine ⟨name :: colon :: (us ++ comma :: vs), .more isName isColon first isComma second,
        tidy.append (tidy'.comma second.first), .inr ?_⟩
      rw [fieldTexts_cons]
      simp only [FieldInit.text, utf8_append, utf8_exprText, List.append_assoc]
      exact .labelled spelled.1 spelled.2.1 isName isColon values.reads

end

end Grammar
end PineLang
