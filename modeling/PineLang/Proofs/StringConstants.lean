import Mathlib.Data.List.Chain
import PineLang.Proofs.CConstants
import PineLang.Proofs.LoweredSites
import PineLang.Proofs.ParsedLiterals
import PineLang.Proofs.StringLiterals

/-!
# String constants of C

Any bytes are printed as one string literal of C that stands for them (`QuotesAs`): it ends at its last quote and at none
before, keeps to its line, and has no trigraph, for behind the first byte of any spelling no question mark stands without a
backslash. With what is known of the strings of a source, the constant that a string becomes stands for the text that the
source denotes (`string_constant`).
-/
namespace PineLang
namespace C

/-! ## No trigraphs -/

/-- A question mark stands behind a backslash only. -/
def Guards (a b : UInt8) : Prop := b = 0x3F → a = 0x5C

/-- The bytes do not begin with a question mark, and guard those that they have. -/
structure Guarded (bs : Bytes) : Prop where
  head : ∀ b ∈ bs.head?, b ≠ 0x3F
  inner : bs.IsChain Guards

namespace Guarded

variable {bs cs : Bytes}

theorem nil : Guarded [] := ⟨nofun, .nil⟩

theorem append (first : Guarded bs) (second : Guarded cs) : Guarded (bs ++ cs) := by
  constructor
  · intro b isHead
    rw [List.head?_append, Option.mem_def, Option.or_eq_some_iff] at isHead
    rcases isHead with before | ⟨-, behind⟩
    · exact first.head b before
    · exact second.head b behind
  · refine List.isChain_append.mpr ⟨first.inner, second.inner, ?_⟩
    intro a _ b isHead isMark
    exact absurd isMark (second.head b isHead)

theorem of_forall (plain : ∀ b ∈ bs, b ≠ 0x3F) : Guarded bs := by
  induction bs with
  | nil => exact nil
  | cons b bs ih =>
    rw [List.forall_mem_cons] at plain
    have first : Guarded [b] := ⟨by simpa using plain.1, .singleton b⟩
    exact first.append (ih plain.2)

theorem flatMap {f : UInt8 → Bytes} (each : ∀ b, Guarded (f b)) (bs : Bytes) : Guarded (bs.flatMap f) := by
  induction bs with
  | nil => exact nil
  | cons b bs ih =>
    rw [List.flatMap_cons]
    exact (each b).append ih

/-- Two question marks never stand side by side, as they do in any trigraph. -/
theorem no_trigraph (guarded : Guarded bs) : ¬ [0x3F, 0x3F] <:+: bs := by
  intro inside
  have pair := guarded.inner.infix inside
  rw [List.isChain_pair] at pair
  exact absurd (pair rfl) (by decide)

end Guarded

theorem octalEscape_guarded (b : UInt8) : Guarded (utf8 (octalEscape b)) := by
  have spelled := octal_spelling b.toNat (UInt8.toNat_lt b)
  obtain ⟨-, digits, -⟩ := octal_value b.toNat (UInt8.toNat_lt b)
  rw [UInt8.ofNat_toNat] at spelled
  rw [spelled]
  refine Guarded.of_forall (List.forall_mem_cons.mpr ⟨by decide, fun c member => ?_⟩)
  rw [← digits] at member
  have isDigit := List.all_eq_true.mp List.all_takeWhile c member
  rintro rfl
  cases isDigit

theorem quoteByte_guarded (b : UInt8) : Guarded (quoteByte b) := by
  have letter {word : String} {e : UInt8} (spelled : utf8 word = [0x5C, e]) : Guarded (utf8 word) := by
    rw [spelled]
    refine ⟨by simp, ?_⟩
    rw [List.isChain_pair]
    exact fun _ => rfl
  unfold quoteByte
  split
  · exact letter (e := 0x22) (by simp only [utf8_eq]; decide)
  split
  · exact letter (e := 0x5C) (by simp only [utf8_eq]; decide)
  split
  · exact letter (e := 0x6E) (by simp only [utf8_eq]; decide)
  split
  · exact letter (e := 0x74) (by simp only [utf8_eq]; decide)
  split
  · exact letter (e := 0x72) (by simp only [utf8_eq]; decide)
  split
  · exact letter (e := 0x3F) (by simp only [utf8_eq]; decide)
  · next notMark =>
    split
    · exact octalEscape_guarded b
    · exact .of_forall (List.forall_mem_singleton.mpr (by simpa using notMark))

theorem quote_eq (bs : Bytes) : quote bs = 0x22 :: bs.flatMap quoteByte ++ [0x22] := by
  have mark : utf8 "\"" = [0x22] := by simp only [utf8_eq]; decide
  rw [quote, mark]
  rfl

theorem quote_guarded (bs : Bytes) : Guarded (quote bs) := by
  have mark : Guarded [0x22] := .of_forall (List.forall_mem_singleton.mpr (by decide))
  rw [quote_eq]
  exact (mark.append (.flatMap quoteByte_guarded bs)).append mark

/-! ## One literal -/

theorem quoteByte_inLine (b : UInt8) : 0x0A ∉ quoteByte b := by
  intro isBreak
  obtain ⟨e, tail, spelled, inLine, plain, -⟩ | ⟨same, -, -, notBreak⟩ := quoteByte_cases b
  · rw [spelled] at isBreak
    rcases List.mem_cons.mp isBreak with escape | behind
    · exact absurd escape (by decide)
    · rcases List.mem_cons.mp behind with letter | digit
      · exact inLine letter.symm
      · exact (plain _ digit).1 rfl
  · rw [same] at isBreak
    exact notBreak (List.mem_singleton.mp isBreak).symm

/-- The text is one string literal of C that stands for the bytes `bs`. -/
structure QuotesAs (text bs : Bytes) : Prop where
  /-- Between two quotes stands a spelling of the bytes, and the second quote is the first that no backslash escapes. -/
  literal : ∃ inner, text = 0x22 :: inner ++ [0x22] ∧ unescape inner = some bs ∧
    (∀ rest, stringTail (inner ++ 0x22 :: rest) = some (inner, rest)) ∧ tokens text = some [.str inner]
  /-- The literal keeps to its line. -/
  inLine : 0x0A ∉ text
  /-- Nothing in it is taken for another character before it is read. -/
  noTrigraph : ¬ [0x3F, 0x3F] <:+: text

theorem quote_quotesAs (bs : Bytes) : QuotesAs (quote bs) bs where
  literal := by
    refine ⟨bs.flatMap quoteByte, quote_eq bs, unescape_quoted bs, stringTail_quoted bs, ?_⟩
    have read := Spells.quote bs [] nofun
    rw [List.append_nil] at read
    rw [read]
    rfl
  inLine := by
    rw [quote_eq]
    intro isBreak
    rcases List.mem_append.mp isBreak with before | last
    · rcases List.mem_cons.mp before with first | inner
      · exact absurd first (by decide)
      · obtain ⟨b, _, inByte⟩ := List.mem_flatMap.mp inner
        exact quoteByte_inLine b inByte
    · exact absurd (List.mem_singleton.mp last) (by decide)
  noTrigraph := (quote_guarded bs).no_trigraph

end C

/-- Any bytes are printed as one string literal of C that stands for them. Every string of a parsed file is a string token
    of its source, which covers a literal that denotes the text, and it becomes a constant that is printed, wherever it
    stands, as one string literal of C that stands for the bytes of that text. -/
theorem string_constant :
    (∀ bs : Bytes, C.QuotesAs (C.quote bs) bs) ∧
    ∀ (file : Nat) (content : Bytes) (tree : File), parse (lexemes file content) = .ok tree →
      ∀ site ∈ tree.sites, ∀ e ∈ site.stmt.exprs, ∀ span s, .lit span (.string s) ∈ e.parts →
        (∃ t, .token t ∈ lexemes file content ∧ t.kind = .stringLit ∧ t.span = span ∧ t.text = s ∧
          Lexer.CoversLiteral file content t) ∧
        ∃ c, Lower.expr (.lit span (.string s)) = .ok (.const c) ∧
          ∀ place, C.QuotesAs ((C.CExpr.const c).text place) (utf8 s) := by
  refine ⟨C.quote_quotesAs, fun file content tree parsed site member e inside span s isPart => ⟨?_, .str (utf8 s), rfl, ?_⟩⟩
  · obtain ⟨t, isToken, isString, same, text⟩ := parsed_string parsed member inside isPart
    exact ⟨t, isToken, isString, same, text, Lexer.lexemes_string isToken isString⟩
  · intro place
    exact C.quote_quotesAs (utf8 s)

/-- A call with a string that would be a trigraph in C. -/
def trigraph : Bytes := utf8 "fun f() -> _:\n    f(\"??=\")\n"

/-- The string of the call. -/
def isTrigraph : Expr → Bool
  | .lit ⟨0, 20, 25⟩ (.string s) => s == "??="
  | _ => false

/-- The question marks are escaped in C, and stand for themselves. -/
theorem string_constant_trigraph : ∃ t, .token t ∈ lexemes 0 trigraph ∧ t.text = "??=" ∧ Lexer.CoversLiteral 0 trigraph t ∧
    C.QuotesAs ((C.CExpr.const (.str (utf8 "??="))).text .whole) (utf8 "??=") := by
  have run : ((parse (lexemes 0 trigraph)).toOption.map fun tree => tree.sites.any fun site => site.stmt.exprs.any fun e =>
      e.parts.any isTrigraph) = some true := by decide +kernel
  obtain ⟨tree, parsed, found⟩ := Lower.ok_of_test run
  simp only [List.any_eq_true] at found
  obtain ⟨site, member, e, inside, p, isPart, isHere⟩ := found
  unfold isTrigraph at isHere
  split at isHere
  · next s =>
    obtain rfl := eq_of_beq isHere
    obtain ⟨⟨t, isToken, -, -, text, covers⟩, c, made, quotes⟩ :=
      string_constant.2 0 trigraph tree parsed site member e inside _ _ isPart
    cases made
    exact ⟨t, isToken, text, covers, quotes .whole⟩
  · cases isHere

end PineLang
