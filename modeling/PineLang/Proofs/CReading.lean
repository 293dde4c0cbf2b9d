import PineLang.Proofs.CConstants
import PineLang.Proofs.CTypes

/-!
How C reads what stands in some place. A text that is an operand with its postfix operators is a target, one with prefix
operators an operand, and every other one stands by itself. There are texts at which the reader is stuck (`Stuck`): what
it reads, if anything, ends before a postfix operator, and so does what it reads of the expressions around them.
-/
namespace PineLang.C

section
variable {structs : List String}

/-! ## First bytes and first tokens -/

/-- A byte that an operand without a prefix operator starts with. -/
def opensPlain (b : UInt8) : Bool := isWordStart b || opensConst b || b == 0x28

theorem plain_ends {p : Punct} {b : UInt8} (plain : opensPlain b = true) (noNumber : p = .dot → isDigit b = false) :
    p.ends b = true := by
  have every : ∀ n < 256, opensPlain (UInt8.ofNat n) = true →
      UInt8.ofNat n ∉ Punct.laterBytes ∧ UInt8.ofNat n ≠ 0x2F ∧ UInt8.ofNat n ≠ 0x2A := by decide +kernel
  obtain ⟨other, noComment⟩ := every b.toNat (UInt8.toNat_lt b) (by rwa [UInt8.ofNat_toNat])
  rw [UInt8.ofNat_toNat] at other noComment
  exact ends_of_other other noComment noNumber

theorem wordStart_ends {p : Punct} {b : UInt8} (starts : isWordStart b = true) : p.ends b = true := by
  refine plain_ends (by simp [opensPlain, starts]) fun _ => ?_
  simp only [isWordStart, isDigit, Bool.or_eq_true, Bool.and_eq_true, decide_eq_true_eq, beq_iff_eq] at starts ⊢
  grind

variable (structs) in
/-- A token that an expression starts with. -/
@[grind =] def opensExpr : CToken → Bool
  | .word w => isObjectName structs w || w == "sizeof"
  | .number _ | .str _ => true
  | .punct p => (prefixes.lookup p).isSome || p == .lparen

/-- A keyword that names no type starts none. -/
theorem keyword_untyped (known : AreStructs structs) {w : String} (keyword : isName w = false)
    (other : baseTypes.lookup w = none ∧ w ≠ "char" ∧ w ≠ "struct") : startsType structs w = false := by
  have fresh : w ∉ structs := by
    intro member
    rw [known.names w member] at keyword
    cases keyword
  simp [startsType, namedType?, fresh, other]

theorem not_type {t : CToken} {rest : List CToken} (known : AreStructs structs) (opens : opensExpr structs t = true) :
    atType structs (t :: rest) = false := by
  cases t with
  | number | str | punct => rfl
  | word w =>
    simp only [opensExpr, Bool.or_eq_true, beq_iff_eq] at opens
    obtain object | rfl := opens
    · obtain ⟨name, untyped⟩ := Bool.and_eq_true_iff.mp object
      have notChar : w ≠ "char" := by rintro rfl; exact absurd name (by decide)
      have notStruct : w ≠ "struct" := by rintro rfl; exact absurd name (by decide)
      simp only [Option.isNone_iff_eq_none] at untyped
      simp [atType, startsType, notChar, notStruct, untyped]
    · exact keyword_untyped known (by decide) (by decide)

theorem not_rparen {t : CToken} {rest : List CToken} (opens : opensExpr structs t = true) :
    past (.punct .rparen) (t :: rest) = none := by
  have other : t ≠ .punct .rparen := by
    rintro rfl
    have closed : opensExpr structs (.punct .rparen) = false := rfl
    rw [closed] at opens
    cases opens
  simp [past, other]

/-! ## Where an expression stands -/

/-- Bytes that stand behind an expression. -/
def closes (b : UInt8) : Bool := [0x20, 0x29, 0x5D, 0x2C, 0x3B].contains b

/-- Bytes that stand behind a target. -/
def continues (b : UInt8) : Bool := closes b || [0x28, 0x2B, 0x2D, 0x2E, 0x5B].contains b

/-- A punctuator that continues an operand. -/
def isSuffix (p : Punct) : Bool := (suffixes.lookup p).isSome

/-- A punctuator that does not continue an operand. -/
def stopsOperand (p : Punct) : Bool := (suffixes.lookup p).isNone

/-- A punctuator that does not continue an expression. -/
def stopsExpr (p : Punct) : Bool := (suffixes.lookup p).isNone && (binaries.lookup p).isNone && (assigns.lookup p).isNone

/-- No postfix operator goes on with the size of a type. -/
def CExpr.isSizeOf : CExpr → Bool
  | sizeOf _ => true
  | _ => false

/-- The expression is a cast, to which nothing can be assigned. -/
def CExpr.isCast : CExpr → Bool
  | cast _ _ => true
  | _ => false

section
variable {α β : Type} {left : α → List CToken} {left' : β → List CToken} {result o : Option α} {next : α → Option β}

/-- What is read, if anything, ends before a postfix operator, with which nothing goes on. -/
def Stuck (left : α → List CToken) (result : Option α) : Prop := ∀ v, result = some v → Behind isSuffix (left v)

theorem Stuck.of_none : Stuck left none := fun _ found => by cases found

theorem Stuck.of_some {v : α} (blocked : Behind isSuffix (left v)) : Stuck left (some v) := by
  rintro _ ⟨⟩
  exact blocked

theorem Stuck.bind (stuck : Stuck left result) (halts : ∀ v, Behind isSuffix (left v) → Stuck left' (next v)) :
    Stuck left' (result.bind next) := by
  intro w found
  obtain ⟨v, first, rest⟩ := Option.bind_eq_some_iff.mp found
  exact halts v (stuck v first) w rest

/-- A reader reads a value, or it is stuck where there is none. -/
def Gives (left : α → List CToken) (result : Option α) : Option α → Prop
  | some v => result = some v
  | none => Stuck left result

end

variable (structs)

/-- Tokens at which an expression starts. -/
def Opens (ts : List CToken) : Prop := ∃ t rest, ts = t :: rest ∧ opensExpr structs t = true

/-- The operators behind a target are read on, or the reader is stuck before them. -/
def Onward (fuel : Nat) (rest : List CToken) (result : Option (CExpr × List CToken)) : Option CExpr → Prop
  | some x => result = readSuffixes structs fuel x rest
  | none => Stuck Prod.snd result

/-- A text that is read as far as its postfix operators: the operators behind it go on with what is read. -/
structure Target (text : Bytes) (ts : List CToken) (o : Option CExpr) : Prop where
  spells : Spells continues text ts
  head : ∃ b ∈ text.head?, opensPlain b = true
  first : Opens structs ts
  reads : ∀ n rest, Behind (fun _ => true) rest → 8 * ts.length + 1 ≤ n → ∃ m result, n ≤ m + 8 * ts.length ∧
    readCast structs n (ts ++ rest) = result.map (true, ·) ∧ Onward structs m rest result o

/-- A text that is read as an operand, which can be assigned to or not. -/
structure Operand (text : Bytes) (ts : List CToken) (o : Option CExpr) (assignable : Bool) : Prop where
  spells : Spells closes text ts
  first : Opens structs ts
  reads : ∀ n rest, Behind stopsOperand rest → 8 * ts.length + 2 ≤ n →
    Gives (fun v => v.2.2) (readCast structs n (ts ++ rest)) (o.map (assignable, ·, rest))

/-- A text that is read where nothing outside binds to its parts. -/
structure Standing (text : Bytes) (ts : List CToken) (o : Option CExpr) : Prop where
  spells : Spells closes text ts
  first : Opens structs ts
  reads : ∀ n rest, Behind stopsExpr rest → 8 * ts.length + 4 ≤ n →
    Gives Prod.snd (readExpr structs n (ts ++ rest)) (o.map (·, rest))

/-- An expression read from a text where nothing outside binds to its parts. -/
structure Alone (text : Bytes) (ts : List CToken) (x : CExpr) : Prop where
  spells : Spells closes text ts
  first : Opens structs ts
  reads : ∀ n rest, Behind stopsExpr rest → 8 * ts.length + 4 ≤ n → readExpr structs n (ts ++ rest) = some (x, rest)

variable {structs} {text : Bytes} {ts : List CToken} {x : CExpr} {o : Option CExpr} {assignable : Bool}

theorem Standing.alone (standing : Standing structs text ts (some x)) : Alone structs text ts x where
  spells := standing.spells
  first := standing.first
  reads := standing.reads

theorem pick_none {α : Type} {table : List (Punct × α)} {ok : Punct → Bool} {rest : List CToken}
    (stops : ∀ p, ok p = true → table.lookup p = none) (behind : Behind ok rest) : pick table rest = none := by
  obtain ⟨p, more, rfl, known⟩ := behind
  simp [pick, stops p known]

theorem Behind.mono {p q : Punct → Bool} {rest : List CToken} (behind : Behind p rest) (weaker : ∀ s, p s = true → q s = true) :
    Behind q rest := by
  obtain ⟨s, more, rfl, known⟩ := behind
  exact ⟨s, more, rfl, weaker s known⟩

theorem stops_suffix {p : Punct} (stops : stopsExpr p = true) : stopsOperand p = true := by
  simp only [stopsExpr, Bool.and_eq_true] at stops
  exact stops.1.1

theorem no_binary {rest : List CToken} (behind : Behind stopsExpr rest) : pick binaries rest = none := by
  refine pick_none (fun p known => ?_) behind
  simp only [stopsExpr, Bool.and_eq_true, Option.isNone_iff_eq_none] at known
  exact known.1.2

theorem no_assign {rest : List CToken} (behind : Behind stopsExpr rest) : pick assigns rest = none := by
  refine pick_none (fun p known => ?_) behind
  simp only [stopsExpr, Bool.and_eq_true, Option.isNone_iff_eq_none] at known
  exact known.2

/-! ## What is stuck stays stuck -/

theorem suffix_classes : ∀ e ∈ suffixes, assigns.lookup e.1 = none ∧ binaries.lookup e.1 = none ∧ e.1 ≠ .rparen ∧ e.1 ≠ .rbracket ∧
    e.1 ≠ .comma ∧ e.1 ≠ .semicolon := by
  decide

theorem suffix_found {p : Punct} (suffix : isSuffix p = true) : assigns.lookup p = none ∧ binaries.lookup p = none ∧ p ≠ .rparen ∧
    p ≠ .rbracket ∧ p ≠ .comma ∧ p ≠ .semicolon := by
  obtain ⟨s, found⟩ := Option.isSome_iff_exists.mp suffix
  obtain ⟨before, behind, shape, -⟩ := List.lookup_eq_some_iff.mp found
  exact suffix_classes (p, s) (by rw [shape]; simp)

section
variable {blocked : List CToken} {n : Nat}

/-- No closing mark stands where a postfix operator does. -/
theorem Behind.unclosed (behind : Behind isSuffix blocked) : past (.punct .rparen) blocked = none ∧
    past (.punct .rbracket) blocked = none ∧ past (.punct .comma) blocked = none ∧ past (.punct .semicolon) blocked = none := by
  obtain ⟨p, others, rfl, suffix⟩ := behind
  obtain ⟨-, -, notParen, notBracket, notComma, notEnd⟩ := suffix_found suffix
  simp [past, notParen, notBracket, notComma, notEnd]

theorem Behind.no_operator (behind : Behind isSuffix blocked) : pick assigns blocked = none ∧ pick binaries blocked = none := by
  obtain ⟨p, others, rfl, suffix⟩ := behind
  obtain ⟨noAssign, noBinary, -⟩ := suffix_found suffix
  simp [pick, noAssign, noBinary]

theorem readBinary_stuck {least : Nat} (behind : Behind isSuffix blocked) : Stuck Prod.snd (readBinary structs n least x blocked) := by
  cases n with
  | zero => exact .of_none
  | succ n =>
    rw [readBinary, behind.no_operator.2]
    exact .of_some behind

theorem readExpr_stuck (stuck : Stuck (fun v => v.2.2) (readCast structs n ts)) : Stuck Prod.snd (readExpr structs (n + 1) ts) := by
  rw [readExpr]
  refine stuck.bind fun v behind => ?_
  obtain ⟨assignable, left, rest⟩ := v
  simp only [behind.no_operator.1]
  exact readBinary_stuck behind

/-- What closes behind an expression is not reached. -/
theorem Stuck.unclosed {β : Type} {result : Option (CExpr × List CToken)} {mark : Punct} {next : CExpr × List CToken → List CToken → Option β}
    (stuck : Stuck Prod.snd result) (closing : mark = .rparen ∨ mark = .rbracket) :
    (result.bind fun v => (past (.punct mark) v.2).bind (next v)) = none := by
  rw [Option.bind_eq_none_iff]
  intro v found
  have unclosed := (stuck v found).unclosed
  obtain rfl | rfl := closing
  · rw [unclosed.1, Option.bind_none]
  · rw [unclosed.2.1, Option.bind_none]

end

theorem Target.operand (target : Target structs text ts o) : Operand structs text ts o true where
  spells := target.spells.mono fun b ends => by simp [continues, ends]
  first := target.first
  reads n rest behind enough := by
    obtain ⟨m, result, spent, read, onward⟩ := target.reads n rest (behind.mono fun _ _ => rfl) (by omega)
    rw [read]
    cases o with
    | none =>
      intro v found
      obtain ⟨w, inner, rfl⟩ := Option.map_eq_some_iff.mp found
      exact onward w inner
    | some x =>
      obtain ⟨m, rfl⟩ : ∃ k, m = k + 1 := ⟨m - 1, by omega⟩
      have stops : pick suffixes rest = none := pick_none (fun p known => Option.isNone_iff_eq_none.mp known) behind
      rw [show result = _ from onward, readSuffixes, stops]
      rfl

theorem Operand.standing (operand : Operand structs text ts o assignable) : Standing structs text ts o where
  spells := operand.spells
  first := operand.first
  reads n rest behind enough := by
    obtain ⟨n, rfl⟩ : ∃ k, n = k + 2 := ⟨n - 2, by omega⟩
    have read := operand.reads (n + 1) rest (behind.mono fun _ => stops_suffix) (by omega)
    cases o with
    | none => exact readExpr_stuck read
    | some x =>
      have read : readCast structs (n + 1) (ts ++ rest) = some (assignable, x, rest) := read
      show readExpr structs (n + 2) (ts ++ rest) = some (x, rest)
      rw [readExpr]
      simp only [read, no_assign behind, readBinary, no_binary behind, Option.bind_eq_bind, Option.bind_some]

theorem parens_bytes (text : Bytes) : parens text = Punct.lparen.bytes ++ (text ++ Punct.rparen.bytes) := by
  have marks : utf8 "(" = Punct.lparen.bytes ∧ utf8 ")" = Punct.rparen.bytes := by simp only [utf8_eq]; decide
  rw [parens, marks.1, marks.2, List.append_assoc]

/-! ## Steps of the reader -/

@[simp] theorem past_same (t : CToken) (rest : List CToken) : past t (t :: rest) = some rest := by simp [past]

theorem past_other {t u : CToken} (other : u ≠ t) (rest : List CToken) : past t (u :: rest) = none := by simp [past, other]

variable {inner rest : List CToken} {n : Nat}

theorem readCast_parens (untyped : atType structs inner = false) : readCast structs (n + 1) (.punct .lparen :: inner) =
    ((readExpr structs n inner).bind fun v => (past (.punct .rparen) v.2).bind (readSuffixes structs n v.1)).map (true, ·) := by
  have noPrefix : pick prefixes (.punct .lparen :: inner) = none := rfl
  have noSize : past (.word "sizeof") (.punct .lparen :: inner) = none := by simp [past]
  simp only [readCast, noPrefix, noSize, past_same, untyped, Bool.false_eq_true, if_false, Option.map_bind, Function.comp_def]
  rfl

theorem readCast_type {t : CType} (typed : atType structs inner = true)
    (isType : readType structs inner = some (t, .punct .rparen :: rest)) :
    readCast structs (n + 1) (.punct .lparen :: inner) =
      (readCast structs n rest).bind fun v => some (false, .cast t v.2.1, v.2.2) := by
  have noPrefix : pick prefixes (.punct .lparen :: inner) = none := rfl
  have noSize : past (.word "sizeof") (.punct .lparen :: inner) = none := by simp [past]
  simp [readCast, noPrefix, noSize, typed, isType]

theorem readCast_atom {t : CToken} (isAtom : t.isConst = true ∨ ∃ w, t = .word w ∧ isObjectName structs w = true) :
    readCast structs (n + 1) (t :: rest) =
      ((readAtom structs (t :: rest)).bind fun v => readSuffixes structs n v.1 v.2).map (true, ·) := by
  have noPrefix : pick prefixes (t :: rest) = none := by
    obtain const | ⟨w, rfl, -⟩ := isAtom
    · cases t <;> first | rfl | cases const
    · rfl
  have noSize : past (.word "sizeof") (t :: rest) = none := by
    refine past_other ?_ rest
    rintro rfl
    obtain const | ⟨w, same, object⟩ := isAtom
    · cases const
    · cases same
      exact absurd (Bool.and_eq_true_iff.mp object).1 (by decide)
  have noParen : past (.punct .lparen) (t :: rest) = none := by
    refine past_other ?_ rest
    rintro rfl
    obtain const | ⟨w, same, -⟩ := isAtom
    · cases const
    · cases same
  simp only [readCast, noPrefix, noSize, noParen, Option.map_bind]
  rfl

theorem readCast_prefix {p : Punct} {op : UnaryOp} (known : prefixes.lookup p = some op) :
    readCast structs (n + 1) (.punct p :: inner) = (readCast structs n inner).bind fun v =>
      if op.isStep && !v.1 then none else some (true, .unary op v.2.1, v.2.2) := by
  have found : pick prefixes (.punct p :: inner) = some (op, inner) := by simp [pick, known]
  simp only [readCast, found]
  rfl

end
end PineLang.C
