import Mathlib.Data.List.Induction
import Mathlib.Data.Nat.Digits.Defs
import PineLang.Proofs.CConstants
import PineLang.Proofs.LoweredSites
import PineLang.Proofs.ParsedLiterals
import PineLang.Proofs.SourceGaps

/-!
# Integer literals

An integer has one value from the digits of the source to the constant of C. The digits are read as one token of their
value, or as an overflow beyond 64 bits (`lexeme_whole`, `scan_whole`); whatever the value, the constant that it becomes
denotes it by the rules of C, where a zero at the head would make the digits octal (`C.literal_denotes`).
-/
namespace PineLang
namespace Lexer

/-! ## Digits of the source -/

/-- The token of a number is read where a digit stands. -/
theorem lexeme_digits {file : Nat} {c : Cursor}
    (isNumber : (lexeme file c).1.kind = .intLit ∨ (lexeme file c).1.kind = .floatLit) :
    (∃ b tail, c.rest = b :: tail ∧ isDecimal b = true) ∧ lexeme file c = number file c := by
  have other {read : Lexeme × Cursor} (plain : isPlain read.1 = true) (same : lexeme file c = read) : False := by
    rw [same] at isNumber
    exact isNumber.elim (kind_ne_of_plain plain rfl) (kind_ne_of_plain plain rfl)
  cases lexeme_readBy file c with
  | word _ read => exact (other (word_plain file c) read).elim
  | operator read => exact (other (operator_plain file c) read).elim
  | number shape isDigit read => exact ⟨⟨_, _, shape, isDigit⟩, read⟩
  | string shape read =>
    rw [read] at isNumber
    obtain kind | kind := @stringBody_kind file c.off (c.rest.drop 1) 0 (c.off + 1) [] none <;>
      obtain isInt | isFloat := isNumber
    · cases kind.symm.trans isInt
    · cases kind.symm.trans isFloat
    · cases kind.symm.trans isInt
    · cases kind.symm.trans isFloat

/-- The value that decimal digits spell. -/
def decimalValue (ds : Bytes) : Nat := Nat.ofDigits 10 (ds.reverse.map fun b => b.toNat - 0x30)

/-- The digits are a whole number before the text behind them: no digit follows, and no point with a digit. -/
structure WholeNumber (ds rest : Bytes) : Prop where
  digits : IsDigits ds
  longest : ∀ b ∈ rest.head?, isDecimal b = false
  noFraction : ∀ d tail, rest = 0x2E :: d :: tail → isDecimal d = false

theorem digitsValue_eq {ds : Bytes} (digits : ∀ b ∈ ds, isDecimal b = true) :
    Double.digitsValue (digitChars ds) = decimalValue ds := by
  unfold Double.digitsValue digitChars decimalValue
  induction ds using List.reverseRecOn with
  | nil => rfl
  | append_singleton ds b ih =>
    obtain ⟨before, last⟩ := List.forall_mem_append.mp digits
    have ascii : b.toNat < 0x80 := ascii_of_decimal (List.forall_mem_singleton (p := fun b => isDecimal b = true) |>.mp last)
    have code : (Char.ofNat b.toNat).toNat = b.toNat := Text.toNat_ofNat (.inl (by omega))
    have zero : '0'.toNat = 0x30 := rfl
    rw [List.map_append, List.foldl_append, ih before, List.reverse_append]
    simp only [List.map_cons, List.map_nil, List.foldl_cons, List.foldl_nil, List.reverse_singleton, List.singleton_append,
      Nat.ofDigits_cons, code, zero]
    omega

variable {ds rest : Bytes}

theorem WholeNumber.run (number : WholeNumber ds rest) : digitRun (ds ++ rest) = ds ∧ fractionRun (ds ++ rest) = [] := by
  have run := digitRun_append number.digits.2 number.longest
  refine ⟨run, ?_⟩
  rw [fractionRun, run, List.drop_left]
  split
  · next tail =>
    cases tail with
    | nil => rfl
    | cons d tail => simp [digitRun, number.noFraction d tail rfl]
  · rfl

theorem wholeNumber_of_run {b : UInt8} {tail : Bytes} (isDigit : isDecimal b = true) (whole : fractionRun (b :: tail) = []) :
    WholeNumber (digitRun (b :: tail)) ((b :: tail).dropWhile isDecimal) where
  digits := by
    refine ⟨?_, List.all_eq_true.mp List.all_takeWhile⟩
    rw [digitRun, List.takeWhile_cons_of_pos isDigit]
    exact List.cons_ne_nil _ _
  longest d isHead := by
    have stops := List.head?_dropWhile_not isDecimal (b :: tail)
    rw [Option.mem_def.mp isHead] at stops
    simpa using stops
  noFraction d more shape := by
    by_contra digit
    rw [fractionRun, digitRun, drop_takeWhile, shape] at whole
    simp [digitRun, digit] at whole

/-- A whole number is one token that has its value, unless that takes more than 64 bits. -/
theorem lexeme_whole (number : WholeNumber ds rest) (file off : Nat) :
    (decimalValue ds < 2 ^ 64 → ∃ v : UInt64, v.toNat = decimalValue ds ∧ lexeme file ⟨off, ds ++ rest⟩ =
      (.token ⟨.intLit, ⟨file, off, off + ds.length⟩, asciiText ds, .int v⟩, ⟨off + ds.length, rest⟩)) ∧
    (2 ^ 64 ≤ decimalValue ds → lexeme file ⟨off, ds ++ rest⟩ =
      (.error ⟨.integerOverflow (asciiText ds), ⟨file, off, off + ds.length⟩⟩, ⟨off + ds.length, rest⟩)) := by
  obtain ⟨b, tail, shape, isDigit⟩ := number.digits.starts rest
  obtain ⟨run, whole⟩ := number.run
  have read : lexeme file ⟨off, ds ++ rest⟩ = Lexer.number file ⟨off, ds ++ rest⟩ := by
    rw [shape]
    exact lexeme_number isDigit
  rw [read, number_int whole, run, digitsValue_eq number.digits.2]
  simp only [Cursor.span, Cursor.advance, List.drop_left]
  constructor
  · intro bound
    have value : (decimalValue ds).toUInt64.toNat = decimalValue ds := UInt64.toNat_ofNat_of_lt' bound
    exact ⟨_, value, if_pos bound⟩
  · intro beyond
    exact if_neg (Nat.not_lt.mpr beyond)

/-- The lexeme of a whole number is read, unless it ends with the last offset of 32 bits. -/
theorem scan_whole (number : WholeNumber ds rest) {file off : Nat} (short : Cursor.Short ⟨off, ds ++ rest⟩) :
    scan file ⟨off, ds ++ rest⟩ =
      if off + ds.length = 0xFFFFFFFF then .error .index else .ok (lexeme file ⟨off, ds ++ rest⟩) := by
  obtain ⟨b, tail, shape, isDigit⟩ := number.digits.starts rest
  have inside : ds ++ rest ≠ [] := by simp [shape]
  have read : lexeme file ⟨off, ds ++ rest⟩ = Lexer.number file ⟨off, ds ++ rest⟩ := by
    rw [shape]
    exact lexeme_number isDigit
  rw [scan_eq short inside, read]
  simp only [number_brims short, number.run.1]

/-- The token covers a whole number of the source, and has its value. -/
def CoversNumber (file : Nat) (source : Bytes) (span : Span) (v : UInt64) : Prop :=
  ∃ before ds rest, source = before ++ ds ++ rest ∧ span = ⟨file, before.length, before.length + ds.length⟩ ∧
    WholeNumber ds rest ∧ v.toNat = decimalValue ds

/-- Every integer token of a source covers a whole number of that value. -/
theorem lexemes_integer {file : Nat} {source : Bytes} {t : Token} (member : .token t ∈ lexemes file source)
    (isInt : t.kind = .intLit) : CoversNumber file source t.span t.payload.toInt := by
  have run : Run file 0 ⟨0, source⟩ (lexemes file source) := lexemesFrom_run file (c := ⟨0, source⟩) (Nat.lt_succ_self _)
  obtain ⟨ms, us, shape⟩ := List.append_of_mem member
  obtain ⟨_, c, reaches, _, token, _⟩ := run.inline shape (by rw [Lexeme.kind, Lexeme.toToken, isInt]; rfl)
  have here : Cursor.At source ⟨0, source⟩ := ⟨[], rfl, rfl⟩
  obtain ⟨before, place, split⟩ := here.reaches reaches
  have kind : (lexeme file c).1.kind = .intLit := by rw [← token]; exact isInt
  obtain ⟨⟨b, tail, head, isDigit⟩, read⟩ := lexeme_digits (.inl kind)
  have whole : fractionRun c.rest = [] := by
    by_contra parted
    rw [read, number_float parted] at kind
    simp only at kind
    split at kind <;> cases kind
  obtain ⟨off, bs⟩ := c
  obtain rfl : bs = b :: tail := head
  have number := wholeNumber_of_run isDigit whole
  have parted : digitRun (b :: tail) ++ (b :: tail).dropWhile isDecimal = b :: tail := List.takeWhile_append_dropWhile
  have there := lexeme_whole number file off
  rw [parted, ← Prod.mk.eta (p := lexeme file ⟨off, b :: tail⟩), ← token] at there
  refine ⟨before, _, _, by rw [List.append_assoc, parted, split], ?_⟩
  rcases Nat.lt_or_ge (decimalValue (digitRun (b :: tail))) (2 ^ 64) with small | large
  · obtain ⟨v, value, same⟩ := there.1 small
    obtain ⟨rfl⟩ := Lexeme.token.inj (Prod.mk.inj same).1
    rw [place]
    exact ⟨rfl, number, value⟩
  · cases (Prod.mk.inj (there.2 large)).1

end Lexer

namespace C

/-! ## Constants of C -/

/-- The whole number that a constant is. -/
def Const.whole? : Const → Option Int
  | int v => some v.toInt
  | uint v => some v.toNat
  | _ => none

/-- The suffix that makes a constant unsigned. -/
def unsignedSuffix : Bytes := [0x55, 0x4C, 0x4C]

/-- The text is one number of C that denotes `n`, with no needless zero at its head, and with a suffix only beyond the
    signed range. -/
structure DenotesWhole (text : Bytes) (n : Nat) : Prop where
  single : tokens text = some [.number text]
  denotes : ∃ c, number? text = some c ∧ c.whole? = some (n : Int)
  canonical : text.head? = some 0x30 → n = 0 ∧ text = [0x30]
  suffix : unsignedSuffix <:+ text ↔ 2 ^ 63 - 1 < n

theorem decimal_zero {n : Nat} (zero : (decimal n).head? = some 0x30) : n = 0 := by
  by_contra other
  exact decimal_head other zero

theorem decimal_no_suffix (n : Nat) : ¬ unsignedSuffix <:+ decimal n := by
  rintro ⟨before, whole⟩
  have digit := decimal_digits (n := n) 0x55 (by rw [← whole]; simp [unsignedSuffix])
  cases digit

/-- Digits, and a suffix or none, are one token of C; a zero at their head is all of them. -/
theorem decimal_denotes {n : Nat} {suffix : Bytes} {c : Const} (letters : ∀ b ∈ suffix, isWordPart b = true)
    (read : number? (decimal n ++ suffix) = some c) (value : c.whole? = some (n : Int)) (alone : n = 0 → suffix = [])
    (beyond : unsignedSuffix <:+ decimal n ++ suffix ↔ 2 ^ 63 - 1 < n) : DenotesWhole (decimal n ++ suffix) n where
  single := (Spells.number (decimal_number letters)).whole
  denotes := ⟨c, read, value⟩
  canonical zero := by
    obtain ⟨b, tail, spelled⟩ := List.exists_cons_of_ne_nil (decimal_nonempty n)
    have first : (decimal n).head? = some 0x30 := by
      rw [spelled] at zero ⊢
      exact zero
    obtain rfl := decimal_zero first
    exact ⟨rfl, by rw [alone rfl]; rfl⟩
  suffix := beyond

theorem signed_denotes {v : UInt64} (small : v.toNat < 0x8000000000000000) : DenotesWhole (Const.int v.toInt64).text v.toNat := by
  have value : v.toInt64.toInt = v.toNat := BitVec.toInt_eq_toNat_of_lt (by
    have same : v.toInt64.toBitVec.toNat = v.toNat := rfl
    omega)
  have spelled : (Const.int v.toInt64).text = decimal v.toNat ++ [] := by
    have notNegative : ¬ v.toInt64 < 0 := by
      rw [Int64.lt_iff_toInt_lt, value]
      exact Int.not_lt.mpr (Int.natCast_nonneg _)
    rw [Const.text, if_neg notNegative, value, List.append_nil]
    exact utf8_toString v.toNat
  have same : Int64.ofNat v.toNat = v.toInt64 := by rw [← Int64.ofInt_eq_ofNat, ← value, Int64.ofInt_toInt]
  have read : number? (decimal v.toNat ++ []) = some (.int v.toInt64) := by
    rw [List.append_nil, number_int small, same]
  rw [spelled]
  refine decimal_denotes (List.forall_mem_nil _) read (congrArg some value) (fun _ => rfl) ?_
  rw [List.append_nil]
  exact iff_of_false (decimal_no_suffix _) (by omega)

theorem unsigned_denotes {v : UInt64} (large : 0x8000000000000000 ≤ v.toNat) : DenotesWhole (Const.uint v).text v.toNat := by
  have spelled : (Const.uint v).text = decimal v.toNat ++ unsignedSuffix := by
    have suffix : utf8 "ULL" = unsignedSuffix := by simp only [utf8_eq]; decide
    rw [Const.text, utf8_append, utf8_toString, suffix]
  rw [spelled]
  refine decimal_denotes (by decide) (number_uint v.toNat_lt) ?_ (fun none => by omega)
    (iff_of_true (List.suffix_append _ _) (by omega))
  rw [Const.whole?, UInt64.ofNat_toNat]

/-- The constant that a literal becomes denotes the literal's value. -/
theorem literal_denotes (v : UInt64) (text : String) :
    ∃ c, Lower.literal (.int v text) = .ok (.const c) ∧ DenotesWhole c.text v.toNat ∧
      ∀ place, (CExpr.const c).text place = c.text ∨ (CExpr.const c).text place = parens c.text := by
  have placed (c : Const) (noText : ∀ s, c ≠ .str s) (place : Place) :
      (CExpr.const c).text place = c.text ∨ (CExpr.const c).text place = parens c.text := by
    have inParens : (CExpr.const c).text place = parensIf (place == .target) c.text := by
      cases c with
      | str s => exact absurd rfl (noText s)
      | int | uint | float => simp [CExpr.text]
    rw [inParens, parensIf]
    split
    · exact .inr rfl
    · exact .inl rfl
  rcases Nat.lt_or_ge v.toNat 0x8000000000000000 with small | large
  · refine ⟨.int v.toInt64, ?_, signed_denotes small, placed _ nofun⟩
    exact congrArg (fun c => Except.ok (CExpr.const c)) (if_pos small)
  · refine ⟨.uint v, ?_, unsigned_denotes large, placed _ nofun⟩
    exact congrArg (fun c => Except.ok (CExpr.const c)) (if_neg (Nat.not_lt.mpr large))

end C

/-- An integer of a parsed file covers a whole number of the source that has its value. -/
theorem parsed_integer {file : Nat} {content : Bytes} {tree : File} (parsed : parse (lexemes file content) = .ok tree)
    {site : Site} (member : site ∈ tree.sites) {e : Expr} (inside : e ∈ site.stmt.exprs) {span : Span} {v : UInt64} {text : String}
    (isPart : .lit span (.int v text) ∈ e.parts) : Lexer.CoversNumber file content span v := by
  obtain ⟨l, isLexeme, isLeaf⟩ := parsed_literals parsed member inside isPart
  unfold Grammar.leaf? at isLeaf
  split at isLeaf
  case h_3 isInt =>
    cases isLeaf
    cases l with
    | token t => exact Lexer.lexemes_integer isLexeme isInt
    | error e earlier => cases isInt
  all_goals cases isLeaf

/-- An integer keeps its value. Digits that neither a digit nor a point with a digit follows are read as one token of the
    value that they spell, with whatever zeros at their head, and as an overflow exactly if that value does not fit into
    64 bits; but the program stops at digits that end with the last offset of 32 bits. Every integer of a parsed file has
    the value of the digits that it covers, and wherever it stands, the constant that it becomes is one number of C that
    denotes this value. -/
theorem integer_literal (file : Nat) :
    (∀ (off : Nat) (ds rest : Bytes), Lexer.WholeNumber ds rest → off + (ds ++ rest).length < 0x100000000 →
      (off + ds.length = 0xFFFFFFFF → Lexer.scan file ⟨off, ds ++ rest⟩ = .error .index) ∧
      (off + ds.length ≠ 0xFFFFFFFF →
        (Lexer.decimalValue ds < 2 ^ 64 → ∃ v : UInt64, v.toNat = Lexer.decimalValue ds ∧
          Lexer.scan file ⟨off, ds ++ rest⟩ =
            .ok (.token ⟨.intLit, ⟨file, off, off + ds.length⟩, Lexer.asciiText ds, .int v⟩, ⟨off + ds.length, rest⟩)) ∧
        (2 ^ 64 ≤ Lexer.decimalValue ds → Lexer.scan file ⟨off, ds ++ rest⟩ =
          .ok (.error ⟨.integerOverflow (Lexer.asciiText ds), ⟨file, off, off + ds.length⟩⟩, ⟨off + ds.length, rest⟩)))) ∧
    (∀ (span : Span) (v : UInt64) (text : String), ∃ c, Lower.expr (.lit span (.int v text)) = .ok (.const c) ∧
      C.DenotesWhole c.text v.toNat ∧
      ∀ place, (C.CExpr.const c).text place = c.text ∨ (C.CExpr.const c).text place = C.parens c.text) ∧
    ∀ (content : Bytes) (tree : File), parse (lexemes file content) = .ok tree →
      ∀ site ∈ tree.sites, ∀ e ∈ site.stmt.exprs, ∀ span v text, .lit span (.int v text) ∈ e.parts →
        Lexer.CoversNumber file content span v := by
  refine ⟨fun off ds rest number short => ?_, fun span v text => ?_, ?_⟩
  · obtain ⟨fits, tooGreat⟩ := Lexer.lexeme_whole number file off
    rw [Lexer.scan_whole number short]
    refine ⟨fun last => if_pos last, fun before => ?_⟩
    rw [if_neg before]
    refine ⟨fun bound => ?_, fun beyond => congrArg Except.ok (tooGreat beyond)⟩
    obtain ⟨v, value, read⟩ := fits bound
    exact ⟨v, value, congrArg Except.ok read⟩
  · rw [Lower.expr]
    exact C.literal_denotes v text
  · intro content tree parsed site member e inside span v text isPart
    exact parsed_integer parsed member inside isPart

/-- The greatest integer of 64 bits, with two zeros before it. -/
def greatestDigits : Bytes := utf8 "0018446744073709551615"

/-- A call with the greatest integer. -/
def greatest : Bytes := utf8 "fun f() -> _:\n    f(" ++ greatestDigits ++ utf8 ")\n"

/-- The integer of the call. -/
def isGreatest : Expr → Bool
  | .lit ⟨0, 20, 42⟩ (.int v _) => v == 0xFFFFFFFFFFFFFFFF
  | _ => false

/-- The zeros stand in the source only: the constant is decimal, and unsigned. -/
theorem integer_literal_greatest : Lexer.WholeNumber greatestDigits (utf8 ")") ∧
    (∃ v : UInt64, v.toNat = 18446744073709551615 ∧ Lexer.scan 0 ⟨20, greatestDigits ++ utf8 ")"⟩ =
      .ok (.token ⟨.intLit, ⟨0, 20, 42⟩, "0018446744073709551615", .int v⟩, ⟨42, utf8 ")"⟩)) ∧
    (∃ c, Lower.expr (.lit ⟨0, 20, 42⟩ (.int 0xFFFFFFFFFFFFFFFF "0018446744073709551615")) = .ok (.const c) ∧
      C.DenotesWhole c.text 18446744073709551615) ∧
    Lexer.CoversNumber 0 greatest ⟨0, 20, 42⟩ 0xFFFFFFFFFFFFFFFF := by
  have paren : utf8 ")" = [0x29] := by simp only [utf8_eq]; decide
  have number : Lexer.WholeNumber greatestDigits (utf8 ")") := by
    rw [paren]
    exact ⟨⟨by decide +kernel, by decide +kernel⟩, by decide, nofun⟩
  have run : ((parse (lexemes 0 greatest)).toOption.map fun tree => tree.sites.any fun site => site.stmt.exprs.any fun e =>
      e.parts.any isGreatest) = some true := by decide +kernel
  obtain ⟨tree, parsed, found⟩ := Lower.ok_of_test run
  simp only [List.any_eq_true] at found
  obtain ⟨site, member, e, inside, p, isPart, isHere⟩ := found
  obtain ⟨read, made, covers⟩ := integer_literal 0
  refine ⟨number, ?_, ?_, ?_⟩
  · have value : Lexer.decimalValue greatestDigits = 18446744073709551615 := by decide +kernel
    have spelled : greatestDigits.length = 22 ∧ Lexer.asciiText greatestDigits = "0018446744073709551615" := by decide +kernel
    have short : 20 + (greatestDigits ++ utf8 ")").length < 0x100000000 := by
      rw [List.length_append, spelled.1, paren]
      decide
    have before : 20 + greatestDigits.length ≠ 0xFFFFFFFF := by
      rw [spelled.1]
      decide
    obtain ⟨v, same, token⟩ := ((read 20 greatestDigits (utf8 ")") number short).2 before).1 (by rw [value]; decide)
    rw [spelled.1, spelled.2] at token
    exact ⟨v, same.trans value, token⟩
  · obtain ⟨c, lowered, denotes, -⟩ := made ⟨0, 20, 42⟩ 0xFFFFFFFFFFFFFFFF "0018446744073709551615"
    exact ⟨c, lowered, denotes⟩
  · unfold isGreatest at isHere
    split at isHere
    · obtain rfl := eq_of_beq isHere
      exact covers greatest tree parsed site member e inside _ _ _ isPart
    · cases isHere

/-- Behind blanks the lexer comes to a digit of the value one, which neither a digit nor a point follows, and stops. -/
theorem integer_literal_stops : Lexer.passTrivia ⟨0, lastDigit⟩ = .ok ⟨0xFFFFFFFE, [0x31]⟩ ∧
    Lexer.WholeNumber [0x31] [] ∧ Lexer.decimalValue [0x31] = 1 ∧ Lexer.scan 0 ⟨0xFFFFFFFE, [0x31]⟩ = .error .index := by
  have number : Lexer.WholeNumber [0x31] [] := ⟨⟨List.cons_ne_nil _ _, by decide⟩, by simp, by simp⟩
  have last : 0xFFFFFFFE + ([0x31] : Bytes).length = 0xFFFFFFFF := by simp
  have read : Lexer.scan 0 ⟨0xFFFFFFFE, [0x31] ++ []⟩ = .error .index :=
    (Lexer.scan_whole number (by simp [Lexer.Cursor.Short])).trans (if_pos last)
  refine ⟨?_, number, rfl, read⟩
  rw [Lexer.passTrivia_eq (Lexer.Cursor.short_start lastDigit_short), lastDigit, skipTrivia_digit]

end PineLang
