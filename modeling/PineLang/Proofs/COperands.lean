import PineLang.Proofs.CReading
import PineLang.Proofs.FloatText

/-!
What C reads in the parts of an expression: parentheses turn what stands by itself into a target (`Standing.parens`),
postfix operators make further targets (`Continuation`), casts and prefix operators make operands, and operators between
operands what stands by itself. If the reader is stuck at a part, it is stuck at the whole.
-/
namespace PineLang.C

section
variable {structs : List String} {text : Bytes} {ts inner rest : List CToken} {n : Nat} {x : CExpr} {o : Option CExpr}
  {assignable : Bool}

/-! ## Targets -/

/-- Parentheses make a target of any expression. -/
theorem Standing.parens (known : AreStructs structs) (standing : Standing structs text ts o) :
    Target structs (parens text) (.punct .lparen :: (ts ++ [CToken.punct .rparen])) o where
  spells := by
    rw [parens_bytes]
    exact ((Spells.mark (p := .lparen) (by decide)).closed
      (standing.spells.append (.mark (p := .rparen) (by decide)) (by decide) (by decide))).everywhere
  head := by
    rw [parens_bytes]
    exact ⟨0x28, rfl, rfl⟩
  first := ⟨_, _, rfl, rfl⟩
  reads n rest behind enough := by
    simp only [List.length_cons, List.length_append, List.length_nil] at enough ⊢
    obtain ⟨n, rfl⟩ : ∃ k, n = k + 1 := ⟨n - 1, by omega⟩
    have inner := standing.reads n (.punct .rparen :: rest) ⟨.rparen, rest, rfl, by decide⟩ (by omega)
    obtain ⟨t, more, rfl, opens⟩ := standing.first
    have untyped : atType structs (t :: (more ++ .punct .rparen :: rest)) = false := not_type known opens
    simp only [List.cons_append, List.append_assoc, List.nil_append] at inner untyped ⊢
    refine ⟨n, _, by omega, readCast_parens untyped, ?_⟩
    cases o with
    | none =>
      rw [inner.unclosed (.inl rfl)]
      exact Stuck.of_none
    | some x =>
      have inner : readExpr structs n (t :: (more ++ .punct .rparen :: rest)) = some (x, .punct .rparen :: rest) := inner
      rw [inner, Option.bind_some, past_same, Option.bind_some]
      rfl

theorem endsWord_continues {b : UInt8} (ends : continues b = true) : endsWord b = true := by
  simp only [continues, closes, List.contains_eq_mem, List.mem_cons, List.not_mem_nil, or_false, Bool.or_eq_true,
    decide_eq_true_eq] at ends
  obtain (rfl | rfl | rfl | rfl | rfl) | rfl | rfl | rfl | rfl | rfl := ends <;> decide

theorem Target.ofIdent {n : String} (word : isWord n = true) (object : isObjectName structs n = true) :
    Target structs (utf8 n) [.word n] (some (.ident n)) where
  spells := (Spells.word word).mono fun _ => endsWord_continues
  head := by
    obtain ⟨b, member, starts⟩ := word_head word
    exact ⟨b, member, by simp [opensPlain, starts]⟩
  first := ⟨_, _, rfl, by simp [opensExpr, object]⟩
  reads m rest behind enough := by
    simp only [List.length_cons, List.length_nil] at enough ⊢
    obtain ⟨m, rfl⟩ : ∃ k, m = k + 1 := ⟨m - 1, by omega⟩
    refine ⟨m, _, by omega, readCast_atom (.inr ⟨n, rfl, object⟩), ?_⟩
    rw [List.append_eq, List.nil_append, readAtom, if_pos object]
    rfl

theorem Target.ofText (bs : Bytes) : Target structs (quote bs) [.str (bs.flatMap quoteByte)] (some (.const (.str bs))) where
  spells := (Spells.quote bs).everywhere
  head := by
    have mark : utf8 "\"" = [0x22] := by simp only [utf8_eq]; decide
    exact ⟨0x22, by rw [quote, mark]; rfl, rfl⟩
  first := ⟨_, _, rfl, rfl⟩
  reads n rest behind enough := by
    simp only [List.length_cons, List.length_nil] at enough ⊢
    obtain ⟨n, rfl⟩ : ∃ k, n = k + 1 := ⟨n - 1, by omega⟩
    refine ⟨n, _, by omega, readCast_atom (.inl rfl), ?_⟩
    rw [List.append_eq, List.nil_append, readAtom_str structs bs behind]
    rfl

theorem Opens.append {ts : List CToken} (opens : Opens structs ts) (us : List CToken) : Opens structs (ts ++ us) := by
  obtain ⟨t, more, rfl, known⟩ := opens
  exact ⟨t, more ++ us, rfl, known⟩

theorem closing_append {P : UInt8 → Bool} {more : Bytes} {us : List CToken} {p : UInt8 → Bool} (first : Spells P text ts)
    (spells : Spells p more us) (head : ∃ b ∈ more.head?, P b = true) : Spells p (text ++ more) (ts ++ us) := by
  obtain ⟨b, member, known⟩ := head
  refine first.append spells (fun c other => ?_) ?_
  · rwa [Option.mem_unique other member]
  · rintro rfl
    cases member

variable (structs) in
/-- A postfix operator that goes on with a target, and what it makes of it. -/
structure Continuation (text : Bytes) (ts : List CToken) (f : CExpr → Option CExpr) : Prop where
  spells : Spells continues text ts
  head : ∃ b ∈ text.head?, continues b = true
  first : ∃ p more, ts = .punct p :: more ∧ isSuffix p = true
  reads : ∀ x m rest, Behind (fun _ => true) rest → 8 * ts.length ≤ m →
    Onward structs m rest (readSuffixes structs (m + 1) x (ts ++ rest)) (f x)

variable {more : Bytes} {us : List CToken} {f : CExpr → Option CExpr}

theorem Continuation.behind (suffix : Continuation structs more us f) (rest : List CToken) : Behind isSuffix (us ++ rest) := by
  obtain ⟨p, others, rfl, known⟩ := suffix.first
  exact ⟨p, _, rfl, known⟩

/-- A postfix operator makes another target of a target. -/
theorem Target.suffix (target : Target structs text ts o) (suffix : Continuation structs more us f) :
    Target structs (text ++ more) (ts ++ us) (o.bind f) where
  spells := closing_append target.spells suffix.spells suffix.head
  head := head_append target.head
  first := target.first.append us
  reads n rest behind enough := by
    rw [List.length_append] at enough ⊢
    have shorter : 1 ≤ us.length := by
      obtain ⟨p, others, rfl, -⟩ := suffix.first
      rw [List.length_cons]
      omega
    obtain ⟨m, result, spent, read, onward⟩ :=
      target.reads n (us ++ rest) ((suffix.behind rest).mono fun _ _ => rfl) (by omega)
    obtain ⟨m, rfl⟩ : ∃ k, m = k + 1 := ⟨m - 1, by omega⟩
    refine ⟨m, result, by omega, by rw [List.append_assoc, read], ?_⟩
    cases o with
    | none => exact onward
    | some x =>
      have onward : result = readSuffixes structs (m + 1) x (us ++ rest) := onward
      rw [onward]
      exact suffix.reads x m rest behind (by omega)

/-! ## Postfix operators -/

/-- The punctuator that reaches a member. -/
def memberPunct : MemberOp → Punct
  | .direct => .dot
  | .indirect => .arrow

theorem Continuation.member (op : MemberOp) {f : String} (word : isWord f = true) (name : isName f = true) :
    Continuation structs (utf8 (op.text ++ f)) [.punct (memberPunct op), .word f] (fun x => some (.member x op f)) := by
  have sign : utf8 op.text = (memberPunct op).bytes := by cases op <;> (simp only [utf8_eq]; decide)
  obtain ⟨b, tail, spelled, starts, -⟩ := bytes_of_isWord word
  have field : Spells continues (utf8 f) [.word f] := (Spells.word word).mono fun _ => endsWord_continues
  rw [utf8_append, sign]
  refine ⟨?_, ?_, ⟨_, _, rfl, by cases op <;> rfl⟩, fun x m rest _ _ => ?_⟩
  · refine (Spells.punct _).append field ?_ (by rw [spelled]; exact fun empty => by cases empty)
    rw [spelled]
    rintro _ ⟨⟩
    exact wordStart_ends starts
  · refine head_append ?_
    cases op <;> exact ⟨_, rfl, rfl⟩
  · have direct : pick suffixes (.punct .dot :: .word f :: rest) = some (.direct, .word f :: rest) := rfl
    have indirect : pick suffixes (.punct .arrow :: .word f :: rest) = some (.indirect, .word f :: rest) := rfl
    show readSuffixes structs (m + 1) x (.punct (memberPunct op) :: .word f :: rest) = _
    cases op <;> simp [readSuffixes, memberPunct, direct, indirect, readName, name]

/-- Operators that change what they stand behind. -/
def steps : List (Punct × UnaryOp) := [(.inc, .postInc), (.dec, .postDec)]

theorem Continuation.step {p : Punct} {op : UnaryOp} (known : (p, op) ∈ steps) :
    Continuation structs (utf8 op.text) [.punct p] (fun x => some (.unary op x)) := by
  have ended : ∀ e ∈ steps, utf8 e.2.text = e.1.bytes ∧ (∃ b ∈ e.1.bytes.head?, continues b = true) ∧ isSuffix e.1 = true ∧
      ∀ n < 256, continues (UInt8.ofNat n) = true → e.1.ends (UInt8.ofNat n) = true := by
    simp only [utf8_eq]
    decide +kernel
  obtain ⟨spelled, head, isSuffix, ends⟩ := ended _ known
  have spelled : utf8 op.text = p.bytes := spelled
  rw [spelled]
  refine ⟨(Spells.punct p).mono fun b continued => ?_, head, ⟨_, _, rfl, isSuffix⟩, fun x m rest _ _ => ?_⟩
  · have ends := ends b.toNat (UInt8.toNat_lt b)
    rw [UInt8.ofNat_toNat] at ends
    exact ends continued
  · have up : pick suffixes (.punct .inc :: rest) = some (.inc, rest) := rfl
    have down : pick suffixes (.punct .dec :: rest) = some (.dec, rest) := rfl
    show readSuffixes structs (m + 1) x (.punct p :: rest) = _
    simp only [steps, List.mem_cons, Prod.mk.injEq, List.not_mem_nil, or_false] at known
    obtain ⟨rfl, rfl⟩ | ⟨rfl, rfl⟩ := known
    · simp [readSuffixes, up]
    · simp [readSuffixes, down]

theorem Continuation.index (index : Standing structs text ts o) :
    Continuation structs (utf8 "[" ++ text ++ utf8 "]") (.punct .lbracket :: (ts ++ [CToken.punct .rbracket]))
      (fun x => o.map (.binary .index x ·)) := by
  have marks : utf8 "[" = Punct.lbracket.bytes ∧ utf8 "]" = Punct.rbracket.bytes := by simp only [utf8_eq]; decide
  rw [marks.1, marks.2, List.append_assoc]
  refine ⟨?_, ⟨0x5B, rfl, rfl⟩, ⟨_, _, rfl, rfl⟩, fun x m rest _ enough => ?_⟩
  · exact ((Spells.mark (p := .lbracket) (by decide)).closed
      (index.spells.append (.mark (p := .rbracket) (by decide)) (by decide) (by decide))).everywhere
  · simp only [List.length_cons, List.length_append, List.length_nil] at enough
    have inner := index.reads m (.punct .rbracket :: rest) ⟨.rbracket, rest, rfl, by decide⟩ (by omega)
    have picked : pick suffixes (.punct .lbracket :: (ts ++ .punct .rbracket :: rest)) =
        some (.index, ts ++ .punct .rbracket :: rest) := rfl
    have step : readSuffixes structs (m + 1) x (.punct .lbracket :: (ts ++ .punct .rbracket :: rest)) =
        (readExpr structs m (ts ++ .punct .rbracket :: rest)).bind fun v => (past (.punct .rbracket) v.2).bind
          (readSuffixes structs m (.binary .index x v.1)) := by
      rw [readSuffixes, picked]
      rfl
    simp only [List.cons_append, List.append_assoc, List.nil_append]
    rw [step]
    cases o with
    | none =>
      rw [inner.unclosed (.inr rfl)]
      exact Stuck.of_none
    | some y =>
      have inner : readExpr structs m (ts ++ .punct .rbracket :: rest) = some (y, .punct .rbracket :: rest) := inner
      rw [inner, Option.bind_some, past_same, Option.bind_some]
      rfl

/-! ## Calls -/

variable (structs) in
/-- A text that is read as arguments, with the parenthesis that ends them. -/
structure Arguments (text : Bytes) (ts : List CToken) (o : Option (List CExpr)) : Prop where
  spells : Spells anything text ts
  reads : ∀ n rest, 8 * ts.length + 6 ≤ n → readArgs structs n (ts ++ rest) = o.map (·, rest)

variable (structs) in
/-- A text that is read as further arguments, with the parenthesis that ends them. -/
structure MoreArguments (text : Bytes) (ts : List CToken) (o : Option (List CExpr)) : Prop where
  spells : Spells anything text ts
  head : ∃ b ∈ text.head?, closes b = true
  first : ∀ rest, Behind stopsExpr (ts ++ rest)
  reads : ∀ n rest, 8 * ts.length + 1 ≤ n → readMoreArgs structs n (ts ++ rest) = o.map (·, rest)

theorem rparen_bytes : utf8 ")" = Punct.rparen.bytes := by simp only [utf8_eq]; decide

theorem Spells.rparen : Spells anything (utf8 ")") [.punct .rparen] := by
  rw [rparen_bytes]
  exact .mark (by decide)

theorem Arguments.none : Arguments structs (utf8 ")") [.punct .rparen] (some []) where
  spells := .rparen
  reads n rest enough := by
    obtain ⟨n, rfl⟩ : ∃ k, n = k + 1 := ⟨n - 1, by omega⟩
    simp [readArgs]

theorem MoreArguments.none : MoreArguments structs (utf8 ")") [.punct .rparen] (some []) where
  spells := .rparen
  head := by
    rw [rparen_bytes]
    exact ⟨0x29, rfl, rfl⟩
  first rest := ⟨_, _, rfl, rfl⟩
  reads n rest enough := by
    obtain ⟨n, rfl⟩ : ∃ k, n = k + 1 := ⟨n - 1, by omega⟩
    simp [readMoreArgs]

/-- No arguments follow one at which the reader is stuck. -/
theorem readMoreArgs_stuck {result : Option (CExpr × List CToken)} (stuck : Stuck Prod.snd result) (n : Nat) :
    (result.bind fun v => (readMoreArgs structs n v.2).bind fun w => some (v.1 :: w.1, w.2)) = Option.none := by
  rw [Option.bind_eq_none_iff]
  intro v found
  obtain ⟨noEnd, -, noComma, -⟩ := (stuck v found).unclosed
  cases n with
  | zero => rfl
  | succ n =>
    rw [readMoreArgs]
    simp [noEnd, noComma]

variable {outcome : Option (List CExpr)}

theorem MoreArguments.cons (standing : Standing structs text ts o) (others : MoreArguments structs more us outcome) :
    MoreArguments structs (utf8 ", " ++ text ++ more) (.punct .comma :: (ts ++ us))
      (o.bind fun x => outcome.map (x :: ·)) where
  spells := by
    have comma : utf8 ", " = Punct.comma.bytes ++ [0x20] := by simp only [utf8_eq]; decide
    have mark : Spells anything (utf8 ", ") [.punct .comma] := by
      rw [comma]
      exact (Spells.mark (p := .comma) (by decide)).closed (.space rfl)
    rw [List.append_assoc]
    exact mark.closed (closing_append standing.spells others.spells others.head)
  head := by
    have comma : utf8 ", " = [0x2C, 0x20] := by simp only [utf8_eq]; decide
    exact ⟨0x2C, by rw [comma]; rfl, rfl⟩
  first rest := ⟨_, _, rfl, rfl⟩
  reads n rest enough := by
    simp only [List.length_cons, List.length_append] at enough
    obtain ⟨n, rfl⟩ : ∃ k, n = k + 1 := ⟨n - 1, by omega⟩
    have read := standing.reads n (us ++ rest) (others.first rest) (by omega)
    have readMore := others.reads n rest (by omega)
    have step : readMoreArgs structs (n + 1) (.punct .comma :: (ts ++ us) ++ rest) = (readExpr structs n (ts ++ (us ++ rest))).bind
        fun v => (readMoreArgs structs n v.2).bind fun w => some (v.1 :: w.1, w.2) := by
      have notEnd : past (.punct .rparen) (.punct .comma :: (ts ++ us ++ rest)) = .none := by simp [past]
      rw [List.cons_append, readMoreArgs, notEnd, List.append_assoc]
      simp
    rw [step]
    cases o with
    | none => exact readMoreArgs_stuck read n
    | some x =>
      have read : readExpr structs n (ts ++ (us ++ rest)) = some (x, us ++ rest) := read
      rw [read, Option.bind_some, readMore]
      cases outcome <;> rfl

theorem Arguments.cons (standing : Standing structs text ts o) (others : MoreArguments structs more us outcome) :
    Arguments structs (text ++ more) (ts ++ us) (o.bind fun x => outcome.map (x :: ·)) where
  spells := closing_append standing.spells others.spells others.head
  reads n rest enough := by
    rw [List.length_append] at enough
    obtain ⟨n, rfl⟩ : ∃ k, n = k + 1 := ⟨n - 1, by omega⟩
    have read := standing.reads n (us ++ rest) (others.first rest) (by omega)
    obtain ⟨t, inner, rfl, opens⟩ := standing.first
    have readMore := others.reads n rest (by simp only [List.length_cons] at enough; omega)
    have step : readArgs structs (n + 1) (t :: inner ++ us ++ rest) = (readExpr structs n (t :: inner ++ (us ++ rest))).bind
        fun v => (readMoreArgs structs n v.2).bind fun w => some (v.1 :: w.1, w.2) := by
      rw [List.append_assoc, readArgs, List.cons_append, not_rparen opens]
      simp
    rw [step]
    cases o with
    | none => exact readMoreArgs_stuck read n
    | some x =>
      have read : readExpr structs n (t :: inner ++ (us ++ rest)) = some (x, us ++ rest) := read
      rw [read, Option.bind_some, readMore]
      cases outcome <;> rfl

theorem Continuation.call (args : Arguments structs more us outcome) :
    Continuation structs (utf8 "(" ++ more) (.punct .lparen :: us) (fun x => outcome.map (.call x ·)) := by
  have opening : utf8 "(" = Punct.lparen.bytes := by simp only [utf8_eq]; decide
  rw [opening]
  refine ⟨?_, ⟨0x28, rfl, rfl⟩, ⟨_, _, rfl, rfl⟩, fun x m rest _ enough => ?_⟩
  · exact ((Spells.mark (p := .lparen) (by decide)).closed args.spells).everywhere
  · rw [List.length_cons] at enough
    have picked : pick suffixes (.punct .lparen :: (us ++ rest)) = some (.call, us ++ rest) := rfl
    rw [List.cons_append, readSuffixes, picked]
    simp only [args.reads m rest (by omega), Option.bind_eq_bind]
    cases outcome with
    | none => exact Stuck.of_none
    | some xs => rfl

/-! ## Operands -/

variable (structs) in
theorem Operand.ofNumber (number : IsNumber text) :
    Operand structs text [.number text] ((number? text).map .const) true where
  spells := (Spells.number number).mono fun b ends => by
    simp only [closes, List.contains_eq_mem, List.mem_cons, List.not_mem_nil, or_false, decide_eq_true_eq] at ends
    obtain rfl | rfl | rfl | rfl | rfl := ends <;> decide
  first := ⟨_, _, rfl, rfl⟩
  reads n rest behind enough := by
    obtain ⟨n, rfl⟩ : ∃ k, n = k + 2 := ⟨n - 2, by omega⟩
    have stops : pick suffixes rest = none := pick_none (fun p known => Option.isNone_iff_eq_none.mp known) behind
    rw [List.singleton_append, readCast_atom (.inl rfl), readAtom]
    cases number? text with
    | none => exact Stuck.of_none
    | some c =>
      show ((readSuffixes structs (n + 1) (.const c) rest).map (true, ·)) = _
      rw [readSuffixes, stops]
      rfl

theorem Operand.cast (known : AreStructs structs) (operand : Operand structs text ts o assignable) {t : CType}
    (proper : t.Proper structs) : ∃ us, Operand structs (utf8 ("(" ++ t.text ++ ")") ++ text) us (o.map (.cast t.named)) false := by
  obtain ⟨vs, type⟩ := proper.read known
  have opening : utf8 "(" = Punct.lparen.bytes := by simp only [utf8_eq]; decide
  have spelled : Spells anything (utf8 ("(" ++ t.text ++ ")")) (.punct .lparen :: (vs ++ [CToken.punct .rparen])) := by
    rw [utf8_append, utf8_append, List.append_assoc, opening, rparen_bytes]
    exact (Spells.mark (p := .lparen) (by decide)).closed
      (type.spells.append (.mark (p := .rparen) (by decide)) (by decide) (by decide))
  refine ⟨CToken.punct .lparen :: (vs ++ [CToken.punct .rparen]) ++ ts, spelled.closed operand.spells, ⟨_, _, rfl, rfl⟩,
    fun n rest behind enough => ?_⟩
  simp only [List.length_append, List.length_cons, List.length_nil] at enough
  obtain ⟨n, rfl⟩ : ∃ k, n = k + 1 := ⟨n - 1, by omega⟩
  have read := operand.reads n rest behind (by omega)
  obtain ⟨w, others, shape, starts⟩ := type.first
  have typed : atType structs (vs ++ .punct .rparen :: (ts ++ rest)) = true := by
    rw [shape]
    exact starts
  have isType : readType structs (vs ++ .punct .rparen :: (ts ++ rest)) = some (t.named, .punct .rparen :: (ts ++ rest)) :=
    type.enclosed _
  simp only [List.cons_append, List.append_assoc, List.nil_append]
  rw [readCast_type typed isType]
  cases o with
  | none => exact Stuck.bind read fun v behind => .of_some behind
  | some x =>
    have read : readCast structs n (ts ++ rest) = some (assignable, x, rest) := read
    rw [read]
    rfl

theorem readCast_sizeOf (known : AreStructs structs) {t : CType} (proper : t.Proper structs) : ∃ ts,
    Spells anything (utf8 ("sizeof(" ++ t.text ++ ")")) ts ∧ Opens structs ts ∧
    ∀ n rest, readCast structs (n + 1) (ts ++ rest) = some (true, .sizeOf t.named, rest) := by
  obtain ⟨vs, type⟩ := proper.read known
  have opening : utf8 "sizeof(" = utf8 "sizeof" ++ Punct.lparen.bytes := by simp only [utf8_eq]; decide
  have word : Spells endsWord (utf8 "sizeof") [.word "sizeof"] := .word (by decide)
  have spelled : Spells anything (utf8 ("sizeof(" ++ t.text ++ ")"))
      ([CToken.word "sizeof", CToken.punct .lparen] ++ (vs ++ [CToken.punct .rparen])) := by
    rw [utf8_append, utf8_append, List.append_assoc, opening, rparen_bytes]
    have head : Spells anything (utf8 "sizeof" ++ Punct.lparen.bytes) ([CToken.word "sizeof"] ++ [CToken.punct .lparen]) :=
      word.append (.mark (p := .lparen) (by decide)) (by decide) (by decide)
    exact head.closed (type.spells.append (.mark (p := .rparen) (by decide)) (by decide) (by decide))
  refine ⟨_, spelled, ⟨_, _, rfl, by simp [opensExpr]⟩, fun n rest => ?_⟩
  have isType : readType structs (vs ++ .punct .rparen :: rest) = some (t.named, .punct .rparen :: rest) := type.enclosed rest
  have noPrefix : pick prefixes (.word "sizeof" :: .punct .lparen :: (vs ++ .punct .rparen :: rest)) = none := rfl
  simp [readCast, noPrefix, isType]

theorem sizeOf_head (t : CType) : ∃ b ∈ (utf8 ("sizeof(" ++ t.text ++ ")")).head?, opensPlain b = true := by
  rw [utf8_append, utf8_append]
  exact head_append (head_append ⟨0x73, by simp only [utf8_eq]; decide, rfl⟩)

theorem Operand.sizeOf (known : AreStructs structs) {t : CType} (proper : t.Proper structs) :
    ∃ ts, Operand structs (utf8 ("sizeof(" ++ t.text ++ ")")) ts (some (.sizeOf t.named)) true := by
  obtain ⟨ts, spelled, opens, read⟩ := readCast_sizeOf known proper
  refine ⟨ts, spelled.everywhere, opens, fun n rest behind enough => ?_⟩
  obtain ⟨n, rfl⟩ : ∃ k, n = k + 1 := ⟨n - 1, by omega⟩
  exact read n rest

/-- No postfix operator goes on with the size of a type. -/
theorem Target.sizeOf (known : AreStructs structs) {t : CType} (proper : t.Proper structs) (suffix : Continuation structs more us f) :
    ∃ ts, Target structs (utf8 ("sizeof(" ++ t.text ++ ")") ++ more) ts none := by
  obtain ⟨ts, spelled, opens, read⟩ := readCast_sizeOf known proper
  refine ⟨ts ++ us, spelled.closed suffix.spells, head_append (sizeOf_head t), opens.append us, fun n rest behind enough => ?_⟩
  obtain ⟨n, rfl⟩ : ∃ k, n = k + 1 := ⟨n - 1, by omega⟩
  refine ⟨n + 1, some (.sizeOf t.named, us ++ rest), by omega, ?_, Stuck.of_some (suffix.behind rest)⟩
  rw [List.append_assoc, read]
  rfl

theorem prefixes_spelled : ∀ e ∈ prefixes, prefixes.lookup e.1 = some e.2 ∧ utf8 e.2.text = e.1.bytes ∧ e.2.isPost = false ∧
    e.1 ≠ .dot := by
  simp only [utf8_eq]; decide

theorem plain_behind {p : Punct} {op : UnaryOp} (known : (p, op) ∈ prefixes) (plain : ∃ b ∈ text.head?, opensPlain b = true) :
    ∃ b ∈ text.head?, p.ends b = true := by
  obtain ⟨b, member, opens⟩ := plain
  exact ⟨b, member, plain_ends opens fun isDot => absurd isDot (prefixes_spelled _ known).2.2.2⟩

/-- A prefix operator that does not grow into what stands behind it. -/
theorem Operand.unary {p : Punct} {op : UnaryOp} (known : (p, op) ∈ prefixes) (operand : Operand structs text ts o true)
    (ends : ∃ b ∈ text.head?, p.ends b = true) :
    Operand structs (utf8 op.text ++ text) (.punct p :: ts) (o.map (.unary op)) true where
  spells := by
    have spelled : utf8 op.text = p.bytes := (prefixes_spelled _ known).2.1
    rw [spelled]
    exact closing_append (.punct p) operand.spells ends
  first := by
    refine ⟨_, _, rfl, ?_⟩
    simp [opensExpr, (prefixes_spelled _ known).1]
  reads n rest behind enough := by
    rw [List.length_cons] at enough
    obtain ⟨n, rfl⟩ : ∃ k, n = k + 1 := ⟨n - 1, by omega⟩
    have read := operand.reads n rest behind (by omega)
    rw [List.cons_append, readCast_prefix (prefixes_spelled _ known).1]
    cases o with
    | none =>
      refine Stuck.bind read fun v behind => ?_
      split
      · exact .of_none
      · exact .of_some behind
    | some x =>
      have read : readCast structs n (ts ++ rest) = some (true, x, rest) := read
      rw [read, Option.bind_some, Bool.not_true, Bool.and_false, if_neg Bool.false_ne_true]
      rfl

/-! ## Constants -/

/-- The constant is no infinite float. -/
def Const.isFinite : Const → Bool
  | .float x => x.isFinite
  | _ => true

/-- The constant is a float with a sign. -/
def Const.isNegativeFloat : Const → Bool
  | .float x => x.isNegative
  | _ => false

/-- A constant, with a sign before its magnitude if it is negative. -/
@[grind =] def Const.signed : Const → CExpr
  | .int v => if v < 0 then .unary .minus (.const (.int (-v))) else .const (.int v)
  | .float x => if x.isNegative then .unary .minus (.const (.float x.magnitude)) else .const (.float x)
  | c => .const c

/-- What is read in the text of a constant. The magnitude of the least integer is no constant. -/
def Const.reading (c : Const) : Option CExpr := if c = .int Int64.minValue then none else some c.signed

variable (structs) in
theorem Operand.ofReadable {c : Const} (readable : c.Readable) (notText : ∀ bs, c ≠ .str bs) :
    (∃ ts, Operand structs c.text ts (some (.const c)) true) ∧ ∃ b ∈ c.text.head?, opensPlain b = true := by
  obtain ⟨number, value⟩ := Const.number readable notText
  have operand := Operand.ofNumber structs number
  rw [value] at operand
  obtain ⟨b, head, opens⟩ := number.head
  exact ⟨⟨_, operand⟩, b, head, by simp [opensPlain, opens]⟩

theorem minus_known : (Punct.minus, UnaryOp.minus) ∈ prefixes := by decide

/-- A negative integer stands in parentheses. -/
theorem negative_text {v : Int64} (negative : v < 0) : Const.text (.int v) = parens (utf8 "-" ++ decimal v.toInt.natAbs) := by
  have below : v.toInt < 0 := Int64.lt_iff_toInt_lt.mp negative
  have spelled : toString v.toInt = "-" ++ toString v.toInt.natAbs := by
    obtain ⟨n, same⟩ := Int.eq_negSucc_of_lt_zero below
    rw [same]
    rfl
  rw [Const.text, if_pos negative, spelled, utf8_append, utf8_append, utf8_append, utf8_toString]
  rfl

theorem magnitude_value {v : Int64} (negative : v < 0) : Int64.ofNat v.toInt.natAbs = -v := by
  have below : v.toInt < 0 := Int64.lt_iff_toInt_lt.mp negative
  rw [← Int64.ofInt_eq_ofNat, Int.ofNat_natAbs_of_nonpos (Int.le_of_lt below), Int64.ofInt_neg, Int64.ofInt_toInt]

theorem magnitude_number {v : Int64} (negative : v < 0) :
    ((number? (decimal v.toInt.natAbs)).map .const).map (.unary .minus) = Const.reading (.int v) := by
  have least := v.le_toInt
  have below : v.toInt < 0 := Int64.lt_iff_toInt_lt.mp negative
  rw [number_decimal, Const.reading]
  by_cases isLeast : v = Int64.minValue
  · subst isLeast
    rw [if_neg (by decide), if_pos rfl]
    rfl
  · have above : v.toInt ≠ Int64.minValue.toInt := fun same => isLeast (Int64.toInt_inj.mp same)
    have bound : Int64.minValue.toInt = -0x8000000000000000 := by decide
    rw [if_pos (by omega), if_neg (by simpa using isLeast), magnitude_value negative, Const.signed, if_pos negative]
    rfl

/-- A constant that is no text is read as an operand. -/
theorem Operand.ofConst (known : AreStructs structs) {c : Const} (finite : c.isFinite = true) (notText : ∀ bs, c ≠ .str bs) :
    ∃ ts, Operand structs c.text ts c.reading true := by
  cases c with
  | str bs => exact absurd rfl (notText bs)
  | uint v => exact (Operand.ofReadable _ (c := .uint v) trivial notText).1
  | int v =>
    by_cases negative : v < 0
    · have number := decimal_isNumber v.toInt.natAbs
      obtain ⟨b, head, opens⟩ := number.head
      have operand := (Operand.ofNumber structs number).unary minus_known
        (plain_behind minus_known ⟨b, head, by simp [opensPlain, opens]⟩)
      rw [magnitude_number negative] at operand
      rw [negative_text negative]
      exact ⟨_, (operand.standing.parens known).operand⟩
    · have nonnegative : 0 ≤ v.toInt := Int.not_lt.mp fun below => negative (Int64.lt_iff_toInt_lt.mpr below)
      have notLeast : v ≠ Int64.minValue := by
        rintro rfl
        exact negative (by decide)
      obtain ⟨⟨ts, operand⟩, -⟩ := Operand.ofReadable structs (c := .int v) nonnegative notText
      refine ⟨ts, ?_⟩
      rwa [Const.reading, if_neg (by simpa using notLeast), Const.signed, if_neg negative]
  | float x =>
    have finite : x.isFinite = true := finite
    have notLeast : Const.float x ≠ .int Int64.minValue := by simp
    rw [Const.reading, if_neg notLeast, Const.signed]
    by_cases negative : x.isNegative = true
    · have readable : (Const.float x.magnitude).Readable :=
        float_readable (by rw [Double.magnitude_finite, finite]) (Double.magnitude_nonnegative x)
      obtain ⟨⟨ts, operand⟩, head⟩ := Operand.ofReadable structs readable (by simp)
      rw [if_pos negative, Const.text, floatText_negative finite negative, utf8_append]
      exact ⟨_, operand.unary minus_known (plain_behind minus_known head)⟩
    · rw [if_neg negative]
      exact (Operand.ofReadable _ (float_readable finite (Bool.eq_false_iff.mpr negative)) notText).1

/-- What a constant starts with: a sign if it is a negative float. -/
theorem Const.head {c : Const} (finite : c.isFinite = true) :
    ∃ b ∈ c.text.head?, opensPlain b = true ∨ c.isNegativeFloat = true ∧ b = 0x2D := by
  have plain : c.Readable → (∀ bs, c ≠ .str bs) → ∃ b ∈ c.text.head?, opensPlain b = true ∨ c.isNegativeFloat = true ∧ b = 0x2D := by
    intro readable notText
    obtain ⟨-, b, head, opens⟩ := Operand.ofReadable [] readable notText
    exact ⟨b, head, .inl opens⟩
  cases c with
  | str bs =>
    have mark : utf8 "\"" = [0x22] := by simp only [utf8_eq]; decide
    exact ⟨0x22, by rw [Const.text, quote, mark]; rfl, .inl rfl⟩
  | uint v => exact plain trivial (by simp)
  | int v =>
    by_cases negative : v < 0
    · rw [negative_text negative, parens_bytes]
      exact ⟨0x28, rfl, .inl rfl⟩
    · exact plain (Int.not_lt.mp fun below => negative (Int64.lt_iff_toInt_lt.mpr below)) (by simp)
  | float x =>
    by_cases negative : x.isNegative = true
    · have sign : utf8 "-" = [0x2D] := by simp only [utf8_eq]; decide
      rw [Const.text, floatText_negative finite negative, utf8_append, sign]
      exact ⟨0x2D, rfl, .inr ⟨negative, rfl⟩⟩
    · exact plain (float_readable finite (Bool.eq_false_iff.mpr negative)) (by simp)

/-- Readable constants are read as they are. -/
theorem Const.Readable.reading {c : Const} (readable : c.Readable) :
    c.isFinite = true ∧ c.isNegativeFloat = false ∧ c.reading = some (.const c) := by
  cases c with
  | str | uint => exact ⟨rfl, rfl, rfl⟩
  | int v =>
    have nonnegative : ¬ v < 0 := fun negative => Int.not_lt.mpr readable (Int64.lt_iff_toInt_lt.mp negative)
    have notLeast : v ≠ Int64.minValue := by
      rintro rfl
      exact nonnegative (by decide)
    refine ⟨rfl, rfl, ?_⟩
    rw [Const.reading, if_neg (by simpa using notLeast), signed, if_neg nonnegative]
  | float x =>
    obtain ⟨finite, nonnegative⟩ := float_readable_iff.mp readable
    refine ⟨finite, nonnegative, ?_⟩
    rw [Const.reading, if_neg (by simp), signed, nonnegative, if_neg Bool.false_ne_true]

/-! ## Binary operators and assignments -/

theorem binaries_spelled : ∀ e ∈ binaries, binaries.lookup e.1 = some e.2 ∧ utf8 e.2.1.text = e.1.bytes ∧
    stopsOperand e.1 = true ∧ assigns.lookup e.1 = none ∧ e.1.ends 0x20 = true := by
  simp only [utf8_eq]; decide

theorem assigns_spelled : ∀ e ∈ assigns, assigns.lookup e.1 = some e.2 ∧ utf8 e.2.text = e.1.bytes ∧
    stopsOperand e.1 = true ∧ e.1.ends 0x20 = true := by
  simp only [utf8_eq]; decide

/-- An operator with a space on each side. -/
theorem Spells.spaced {p : Punct} {word : String} (spelled : utf8 word = p.bytes) (ends : p.ends 0x20 = true) :
    Spells anything (utf8 (" " ++ word ++ " ")) [.punct p] := by
  have blank : utf8 " " = [0x20] := by simp only [utf8_eq]; decide
  rw [utf8_append, utf8_append, blank, spelled, List.append_assoc]
  have sign : Spells anything (p.bytes ++ [0x20]) ([CToken.punct p] ++ []) :=
    (Spells.punct p).append (.space rfl) (by rintro _ ⟨⟩; exact ends) (by simp)
  exact (Spells.space (q := anything) rfl).closed sign

theorem spaced_head (word : String) (more : Bytes) : ∃ b ∈ (utf8 (" " ++ word ++ " ") ++ more).head?, closes b = true := by
  have blank : utf8 " " = [0x20] := by simp only [utf8_eq]; decide
  refine head_append ?_
  rw [utf8_append, utf8_append, blank]
  exact ⟨0x20, rfl, rfl⟩

theorem Alone.followed (alone : Alone structs text ts x) {p : UInt8 → Bool} {more : Bytes} {us : List CToken} (spells : Spells p more us)
    (head : ∃ b ∈ more.head?, closes b = true) : Spells p (text ++ more) (ts ++ us) :=
  closing_append alone.spells spells head

variable {other : Bytes} {o' : Option CExpr}

theorem Standing.binary {p : Punct} {op : BinaryOp} {k : Nat} (known : (p, op, k) ∈ binaries) {b c : Bool}
    (left : Operand structs text ts o b) (right : Operand structs other us o' c) :
    Standing structs (text ++ utf8 (" " ++ op.text ++ " ") ++ other) (ts ++ .punct p :: us)
      (o.bind fun x => o'.map (.binary op x ·)) where
  spells := by
    obtain ⟨-, spelled, -, -, ends⟩ := binaries_spelled _ known
    rw [List.append_assoc]
    exact closing_append left.spells ((Spells.spaced spelled ends).closed right.spells) (spaced_head _ _)
  first := left.first.append _
  reads n rest behind enough := by
    rw [List.length_append, List.length_cons] at enough
    obtain ⟨found, -, stops, noAssign, -⟩ := binaries_spelled _ known
    obtain ⟨n, rfl⟩ : ∃ k, n = k + 3 := ⟨n - 3, by omega⟩
    have first := left.reads (n + 2) (.punct p :: (us ++ rest)) ⟨p, _, rfl, stops⟩ (by omega)
    have second := right.reads (n + 1) rest (behind.mono fun _ => stops_suffix) (by omega)
    rw [List.append_assoc, List.cons_append]
    cases o with
    | none => exact readExpr_stuck first
    | some x =>
      have first : readCast structs (n + 2) (ts ++ .punct p :: (us ++ rest)) = some (b, x, .punct p :: (us ++ rest)) := first
      have notAssign : pick assigns (.punct p :: (us ++ rest)) = none := by
        rw [pick, noAssign]
        rfl
      have isBinary : pick binaries (.punct p :: (us ++ rest)) = some ((op, k), us ++ rest) := by
        rw [pick, found]
        rfl
      have step : readExpr structs (n + 3) (ts ++ .punct p :: (us ++ rest)) = (readCast structs (n + 1) (us ++ rest)).bind fun v =>
          (readBinary structs (n + 1) (k + 1) v.2.1 v.2.2).bind fun w => readBinary structs (n + 1) 0 (.binary op x w.1) w.2 := by
        rw [readExpr]
        simp only [first, notAssign, readBinary, isBinary, Option.bind_eq_bind, Option.bind_some, Nat.not_lt_zero, if_false]
      rw [step]
      cases o' with
      | none => exact Stuck.bind second fun v behind => (readBinary_stuck behind).bind fun w behind => readBinary_stuck behind
      | some y =>
        have second : readCast structs (n + 1) (us ++ rest) = some (c, y, rest) := second
        simp only [second, readBinary, no_binary behind, Option.bind_some]
        rfl

/-- Nothing is assigned to a cast. -/
theorem Standing.assign {p : Punct} {op : AssignOp} (known : (p, op) ∈ assigns) (left : Operand structs text ts o assignable)
    (right : Standing structs other us o') :
    Standing structs (text ++ utf8 (" " ++ op.text ++ " ") ++ other) (ts ++ .punct p :: us)
      (if assignable then o.bind fun x => o'.map (.assign op x ·) else none) where
  spells := by
    obtain ⟨-, spelled, -, ends⟩ := assigns_spelled _ known
    rw [List.append_assoc]
    exact closing_append left.spells ((Spells.spaced spelled ends).closed right.spells) (spaced_head _ _)
  first := left.first.append _
  reads n rest behind enough := by
    rw [List.length_append, List.length_cons] at enough
    obtain ⟨found, -, stops, -⟩ := assigns_spelled _ known
    obtain ⟨n, rfl⟩ : ∃ k, n = k + 1 := ⟨n - 1, by omega⟩
    have first := left.reads n (.punct p :: (us ++ rest)) ⟨p, _, rfl, stops⟩ (by omega)
    have second := right.reads n rest behind (by omega)
    rw [List.append_assoc, List.cons_append]
    cases o with
    | none =>
      have stuck := readExpr_stuck first
      cases assignable <;> exact stuck
    | some x =>
      have first : readCast structs n (ts ++ .punct p :: (us ++ rest)) = some (assignable, x, .punct p :: (us ++ rest)) := first
      have isAssign : pick assigns (.punct p :: (us ++ rest)) = some (op, us ++ rest) := by
        rw [pick, found]
        rfl
      have step : readExpr structs (n + 1) (ts ++ .punct p :: (us ++ rest)) =
          if assignable then (readExpr structs n (us ++ rest)).bind fun v => some (.assign op x v.1, v.2) else none := by
        rw [readExpr]
        cases assignable <;> simp [first, isAssign]
      rw [step]
      cases assignable with
      | false => exact Stuck.of_none
      | true =>
        cases o' with
        | none => exact Stuck.bind second fun v behind => .of_some behind
        | some y =>
          have second : readExpr structs n (us ++ rest) = some (y, rest) := second
          rw [second]
          rfl

end
end PineLang.C
