import PineLang.Proofs.COperands

/-!
What C reads in the text of an expression, wherever it stands (`CExpr.Proper.read`). That is not always what was
printed (`CExpr.reading`): a negative constant is read as a sign before its magnitude, two signs that meet are one
operator, and nothing is made of a postfix operator behind `sizeof` or of an assignment to a cast. Readable
expressions are read back as they are (`CExpr.Readable.read`).
-/
namespace PineLang.C

section
variable {structs : List String} {text more : Bytes} {ts us : List CToken} {x : CExpr} {f : CExpr → Option CExpr}

/-! ## Expressions -/

/-- Before a postfix operator nothing is made of the size of a type. -/
def CExpr.tight (x : CExpr) (o : Option CExpr) : Option CExpr := if x.isSizeOf then none else o

/-- A sign and the one that the operand starts with are one operator. -/
def CExpr.merges (op : UnaryOp) : CExpr → Bool
  | .const c => op == .minus && c.isNegativeFloat
  | _ => false

/-- A second sign before an expression that has one. -/
def CExpr.merged : CExpr → CExpr
  | .unary _ x => .unary .preDec x
  | x => x

mutual

/-- What C reads in the text of an expression. -/
@[simp] def CExpr.reading : CExpr → Option CExpr
  | .ident n => some (.ident n)
  | .const c => c.reading
  | .member x op f => (x.tight x.reading).map (.member · op f)
  | .call f args => (f.tight f.reading).bind fun y => (readings args).map (.call y)
  | .cast t x => x.reading.map (.cast t.named)
  | .unary op x =>
    if op.isPost then (x.tight x.reading).map (.unary op) else x.reading.map (if x.merges op then CExpr.merged else .unary op)
  | .binary op x y =>
    (if op == .index then x.tight x.reading else x.reading).bind fun left => y.reading.map (.binary op left)
  | .sizeOf t => some (.sizeOf t.named)
  | .assign op x y => if x.isCast then none else x.reading.bind fun left => y.reading.map (.assign op left)
  | .type _ | .missing => none
termination_by structural x => x

/-- What C reads in the texts of arguments. -/
@[simp] def readings : List CExpr → Option (List CExpr)
  | [] => some []
  | x :: xs => x.reading.bind fun y => (readings xs).map (y :: ·)
termination_by structural xs => xs

end

variable (structs) in
/-- The names in the expression are words that mean no type, its operators have a spelling, its floats are finite, and no
    type stands for an expression. -/
inductive CExpr.Proper : CExpr → Prop
  | ident {n : String} (word : isWord n = true) (object : isObjectName structs n = true) : Proper (.ident n)
  | const {c : Const} (finite : c.isFinite = true) : Proper (.const c)
  | member {x : CExpr} {op : MemberOp} {f : String} (inner : Proper x) (word : isWord f = true) (name : isName f = true) :
    Proper (.member x op f)
  | call {x : CExpr} {args : List CExpr} (callee : Proper x) (inner : ∀ a ∈ args, Proper a) : Proper (.call x args)
  | cast {t : CType} {x : CExpr} (type : t.Proper structs) (inner : Proper x) : Proper (.cast t x)
  | unary {op : UnaryOp} {x : CExpr} (defined : op ∈ UnaryOp.all) (inner : Proper x) : Proper (.unary op x)
  | binary {op : BinaryOp} {x y : CExpr} (defined : op ∈ BinaryOp.all) (left : Proper x) (right : Proper y) :
    Proper (.binary op x y)
  | sizeOf {t : CType} (type : t.Proper structs) : Proper (.sizeOf t)
  | assign {op : AssignOp} {x y : CExpr} (defined : op ∈ AssignOp.all) (left : Proper x) (right : Proper y) :
    Proper (.assign op x y)

variable (structs) in
/-- An expression is read in each place. -/
structure ReadAs (x : CExpr) : Prop where
  target : ∀ {more us f}, Continuation structs more us f → ∃ ts, Target structs (x.text .target ++ more) ts ((x.tight x.reading).bind f)
  operand : ∃ ts, Operand structs (x.text .operand) ts x.reading (!x.isCast)
  standing : ∃ ts, Standing structs (x.text .whole) ts x.reading
  head : x.isPrefixed = false → ∀ {p op}, (p, op) ∈ prefixes → x.merges op = false →
    ∃ b ∈ (x.text .operand).head?, p.ends b = true

theorem ReadAs.ofTarget (same : ∀ place, x.text place = text) (notCast : x.isCast = false) (notSizeOf : x.isSizeOf = false)
    (target : Target structs text ts x.reading) : ReadAs structs x where
  target suffix := by
    rw [same, CExpr.tight, notSizeOf, if_neg Bool.false_ne_true]
    exact ⟨_, target.suffix suffix⟩
  operand := ⟨ts, by rw [same, notCast]; exact target.operand⟩
  standing := ⟨ts, by rw [same]; exact target.operand.standing⟩
  head _ _ _ known _ := by
    rw [same]
    exact plain_behind known target.head

theorem ReadAs.ofOperand (known : AreStructs structs) (inParens : x.text .target = parens text)
    (bare : x.text .operand = text ∧ x.text .whole = text) (notSizeOf : x.isSizeOf = false)
    (operand : Operand structs text ts x.reading (!x.isCast))
    (head : x.isPrefixed = false → ∀ {p op}, (p, op) ∈ prefixes → x.merges op = false → ∃ b ∈ text.head?, p.ends b = true) :
    ReadAs structs x where
  target suffix := by
    rw [inParens, CExpr.tight, notSizeOf, if_neg Bool.false_ne_true]
    exact ⟨_, (operand.standing.parens known).suffix suffix⟩
  operand := ⟨ts, by rwa [bare.1]⟩
  standing := ⟨ts, by rw [bare.2]; exact operand.standing⟩
  head := by rwa [bare.1]

theorem ReadAs.ofStanding (known : AreStructs structs) (inParens : x.text .target = parens text ∧ x.text .operand = parens text)
    (bare : x.text .whole = text) (notCast : x.isCast = false) (notSizeOf : x.isSizeOf = false)
    (standing : Standing structs text ts x.reading) : ReadAs structs x where
  target suffix := by
    rw [inParens.1, CExpr.tight, notSizeOf, if_neg Bool.false_ne_true]
    exact ⟨_, (standing.parens known).suffix suffix⟩
  operand := ⟨_, by rw [inParens.2, notCast]; exact (standing.parens known).operand⟩
  standing := ⟨ts, by rwa [bare]⟩
  head _ _ _ prefixed _ := by
    rw [inParens.2]
    exact plain_behind prefixed (standing.parens known).head

theorem moreArgs_read : ∀ {xs : List CExpr}, (∀ a ∈ xs, ReadAs structs a) →
    ∃ ts, MoreArguments structs (moreArgTexts xs ++ utf8 ")") ts (readings xs)
  | [], _ => ⟨_, .none⟩
  | x :: xs, read => by
    rw [List.forall_mem_cons] at read
    obtain ⟨ts, standing⟩ := read.1.standing
    obtain ⟨us, others⟩ := moreArgs_read read.2
    rw [moreArgTexts, List.append_assoc, readings]
    exact ⟨_, others.cons standing⟩

theorem args_read {xs : List CExpr} (read : ∀ a ∈ xs, ReadAs structs a) :
    ∃ ts, Arguments structs (argTexts xs ++ utf8 ")") ts (readings xs) := by
  cases xs with
  | nil => exact ⟨_, .none⟩
  | cons x xs =>
    rw [List.forall_mem_cons] at read
    obtain ⟨ts, standing⟩ := read.1.standing
    obtain ⟨us, others⟩ := moreArgs_read read.2
    rw [argTexts, List.append_assoc, readings]
    exact ⟨_, Arguments.cons standing others⟩

/-! ## Kinds of expressions -/

theorem ReadAs.const (known : AreStructs structs) {c : Const} (finite : c.isFinite = true) : ReadAs structs (.const c) := by
  by_cases text : ∃ bs, c = .str bs
  · obtain ⟨bs, rfl⟩ := text
    exact .ofTarget (fun place => by rw [CExpr.text]) rfl rfl (.ofText bs)
  · have notText : ∀ bs, c ≠ .str bs := fun bs same => text ⟨bs, same⟩
    have spelled : ∀ place, (CExpr.const c).text place = parensIf (place == .target) c.text := by
      intro place
      cases c <;> first | rfl | exact absurd rfl (notText _)
    obtain ⟨ts, operand⟩ := Operand.ofConst known finite notText
    refine .ofOperand known (spelled _) ⟨spelled _, spelled _⟩ rfl operand fun _ p op isPrefix apart => ?_
    obtain ⟨b, head, plain | ⟨negative, rfl⟩⟩ := Const.head finite
    · exact plain_behind isPrefix ⟨b, head, plain⟩
    · have others : ∀ e ∈ prefixes, e.2 ≠ .minus → e.1.ends 0x2D = true := by decide
      have notMinus : op ≠ .minus := by simpa [CExpr.merges, negative] using apart
      exact ⟨0x2D, head, others (p, op) isPrefix notMinus⟩

theorem ReadAs.sizeOf (known : AreStructs structs) {t : CType} (proper : t.Proper structs) : ReadAs structs (.sizeOf t) := by
  obtain ⟨ts, operand⟩ := Operand.sizeOf known proper
  refine ⟨fun suffix => ?_, ⟨ts, operand⟩, ⟨ts, operand.standing⟩, fun _ p op isPrefix _ => plain_behind isPrefix (sizeOf_head t)⟩
  exact Target.sizeOf known proper suffix

/-- An operator before its operand. -/
theorem ReadAs.prefixed (known : AreStructs structs) {p : Punct} {op : UnaryOp} (isPrefix : (p, op) ∈ prefixes)
    (read : ReadAs structs x) (finite : ∀ c, x = .const c → c.isFinite = true) : ∃ ts,
    Operand structs (utf8 op.text ++ parensIf x.isPrefixed (x.text .operand)) ts
      (x.reading.map (if x.merges op then CExpr.merged else .unary op)) true := by
  obtain ⟨ts, operand⟩ := read.operand
  cases prefixed : x.isPrefixed with
  | true =>
    have apart : x.merges op = false := by cases x <;> first | rfl | cases prefixed
    have target := operand.standing.parens known
    rw [apart]
    exact ⟨_, .unary isPrefix target.operand (plain_behind isPrefix target.head)⟩
  | false =>
    have notCast : x.isCast = false := by cases x <;> first | rfl | cases prefixed
    rw [notCast] at operand
    cases merges : x.merges op with
    | false => exact ⟨_, .unary isPrefix operand (read.head prefixed isPrefix merges)⟩
    | true =>
      -- two minus signs are read as one operator, and what stands behind them as the magnitude
      cases x with
      | const c =>
        cases c with
        | float v =>
          simp only [CExpr.merges, Const.isNegativeFloat, Bool.and_eq_true, beq_iff_eq] at merges
          obtain ⟨rfl, negative⟩ := merges
          have finite : v.isFinite = true := finite _ rfl
          have readable : (Const.float v.magnitude).Readable :=
            float_readable (by rw [Double.magnitude_finite, finite]) (Double.magnitude_nonnegative v)
          have dec : (Punct.dec, UnaryOp.preDec) ∈ prefixes := by decide
          obtain ⟨⟨us, magnitude⟩, head⟩ := Operand.ofReadable structs readable (by simp)
          have spelled : utf8 UnaryOp.minus.text ++ utf8 (floatText v) = utf8 UnaryOp.preDec.text ++ Const.text (.float v.magnitude) := by
            have signs : utf8 UnaryOp.minus.text ++ utf8 "-" = utf8 UnaryOp.preDec.text := by simp only [utf8_eq]; decide
            rw [floatText_negative finite negative, utf8_append, ← List.append_assoc, signs]
            rfl
          have read : (CExpr.const (.float v)).reading = some (.unary .minus (.const (.float v.magnitude))) := by
            rw [CExpr.reading, Const.reading, if_neg (by simp), Const.signed, if_pos negative]
          refine ⟨.punct .dec :: us, ?_⟩
          rw [read]
          show Operand structs (utf8 UnaryOp.minus.text ++ utf8 (floatText v)) _ _ true
          rw [spelled]
          exact magnitude.unary dec (plain_behind dec head)
        | _ => simp [CExpr.merges, Const.isNegativeFloat] at merges
      | _ => cases merges

theorem ReadAs.unary (known : AreStructs structs) {op : UnaryOp} (defined : op ∈ UnaryOp.all) (read : ReadAs structs x)
    (finite : ∀ c, x = .const c → c.isFinite = true) : ReadAs structs (.unary op x) := by
  have spelled : ∀ place, (CExpr.unary op x).text place = parensIf (place == .target)
      (if op.isPost then x.text .target ++ utf8 op.text else utf8 op.text ++ parensIf x.isPrefixed (x.text .operand)) := by
    intro place
    rw [CExpr.text]
  obtain ⟨ts, operand⟩ : ∃ ts, Operand structs (if op.isPost then x.text .target ++ utf8 op.text else
      utf8 op.text ++ parensIf x.isPrefixed (x.text .operand)) ts (CExpr.unary op x).reading true := by
    rw [CExpr.reading]
    cases isPost : op.isPost with
    | true =>
      have postfixes : ∀ op ∈ UnaryOp.all, op.isPost = true → ∃ e ∈ steps, e.2 = op := by decide
      obtain ⟨⟨p, _⟩, isStep, rfl⟩ := postfixes op defined isPost
      obtain ⟨ts, target⟩ := read.target (.step isStep)
      refine ⟨ts, ?_⟩
      simp only [if_true, Option.map_eq_bind]
      exact target.operand
    | false =>
      have others : ∀ op ∈ UnaryOp.all, op.isPost = false → ∃ e ∈ prefixes, e.2 = op := by decide
      obtain ⟨⟨p, _⟩, isPrefix, rfl⟩ := others op defined isPost
      simp only [Bool.false_eq_true, if_false]
      exact read.prefixed known isPrefix finite
  exact .ofOperand known (spelled _) ⟨spelled _, spelled _⟩ rfl operand (fun notPrefixed => by cases notPrefixed)

theorem ReadAs.binary (known : AreStructs structs) {op : BinaryOp} {y : CExpr} (defined : op ∈ BinaryOp.all) (left : ReadAs structs x)
    (right : ReadAs structs y) : ReadAs structs (.binary op x y) := by
  by_cases index : op = .index
  · subst index
    obtain ⟨ts, inner⟩ := right.standing
    obtain ⟨us, target⟩ := left.target (.index inner)
    have spelled : ∀ place, (CExpr.binary .index x y).text place = x.text .target ++ (utf8 "[" ++ y.text .whole ++ utf8 "]") := by
      intro place
      rw [CExpr.text, List.append_assoc, List.append_assoc, List.append_assoc]
    have reading : (CExpr.binary .index x y).reading =
        (x.tight x.reading).bind fun left => y.reading.map (.binary .index left) := by
      rw [CExpr.reading, if_pos (by rfl)]
    rw [← reading] at target
    exact .ofTarget spelled rfl rfl target
  · have every : ∀ op ∈ BinaryOp.all, op ≠ .index → ∃ e ∈ binaries, e.2.1 = op := by decide
    obtain ⟨⟨p, o, k⟩, isBinary, same⟩ := every op defined index
    obtain rfl : o = op := same
    obtain ⟨ts, first⟩ := left.operand
    obtain ⟨us, second⟩ := right.operand
    have spelled : ∀ place, (CExpr.binary o x y).text place = parensIf (place != .whole)
        (x.text .operand ++ utf8 (" " ++ o.text ++ " ") ++ y.text .operand) := by
      intro place
      rw [CExpr.text]
      exact index
    have standing := Standing.binary isBinary first second
    have reading : (CExpr.binary o x y).reading = x.reading.bind fun left => y.reading.map (.binary o left) := by
      rw [CExpr.reading, if_neg (by simpa using index)]
    rw [← reading] at standing
    exact .ofStanding known ⟨spelled _, spelled _⟩ (spelled _) rfl rfl standing

theorem ReadAs.assign (known : AreStructs structs) {op : AssignOp} {y : CExpr} (defined : op ∈ AssignOp.all) (left : ReadAs structs x)
    (right : ReadAs structs y) : ReadAs structs (.assign op x y) := by
  have every : ∀ op ∈ AssignOp.all, ∃ e ∈ assigns, e.2 = op := by decide
  obtain ⟨⟨p, o⟩, isAssign, same⟩ := every op defined
  obtain rfl : o = op := same
  obtain ⟨ts, first⟩ := left.operand
  obtain ⟨us, second⟩ := right.standing
  have spelled : ∀ place, (CExpr.assign o x y).text place = parensIf (place != .whole)
      (x.text .operand ++ utf8 (" " ++ o.text ++ " ") ++ y.text .whole) := by
    intro place
    rw [CExpr.text]
  have standing := Standing.assign isAssign first second
  have reading : (CExpr.assign o x y).reading =
      if !x.isCast then x.reading.bind fun left => y.reading.map (.assign o left) else none := by
    rw [CExpr.reading]
    cases x.isCast <;> rfl
  rw [← reading] at standing
  exact .ofStanding known ⟨spelled _, spelled _⟩ (spelled _) rfl rfl standing

/-- What C reads in the text of every proper expression, in each place. -/
theorem CExpr.Proper.read (known : AreStructs structs) (proper : x.Proper structs) : ReadAs structs x := by
  induction proper with
  | ident word object => exact .ofTarget (fun place => by rw [CExpr.text]) rfl rfl (.ofIdent word object)
  | const finite => exact .const known finite
  | @member x op f inner word name ih =>
    obtain ⟨ts, target⟩ := ih.target (.member op word name)
    have reading : (CExpr.member x op f).reading = (x.tight x.reading).bind fun y => some (.member y op f) := by
      rw [CExpr.reading, Option.map_eq_bind]
      rfl
    rw [← reading] at target
    exact .ofTarget (fun place => by rw [CExpr.text]) rfl rfl target
  | @call x args callee inner ihCallee ihArgs =>
    obtain ⟨us, arguments⟩ := args_read ihArgs
    obtain ⟨ts, target⟩ := ihCallee.target (.call arguments)
    have reading : (CExpr.call x args).reading = (x.tight x.reading).bind fun y => (readings args).map (.call y) := by
      rw [CExpr.reading]
    rw [← reading] at target
    exact .ofTarget (fun place => by rw [CExpr.text, List.append_assoc, List.append_assoc]) rfl rfl target
  | @cast t x type inner ih =>
    obtain ⟨ts, operand⟩ := ih.operand
    obtain ⟨us, cast⟩ := operand.cast known type
    have spelled : ∀ place, (CExpr.cast t x).text place =
        parensIf (place == .target) (utf8 ("(" ++ t.text ++ ")") ++ x.text .operand) := by
      intro place
      rw [CExpr.text]
    have reading : (CExpr.cast t x).reading = x.reading.map (.cast t.named) := by rw [CExpr.reading]
    rw [← reading] at cast
    exact .ofOperand known (spelled _) ⟨spelled _, spelled _⟩ rfl cast (fun notPrefixed => by cases notPrefixed)
  | @unary op x defined inner ih =>
    refine .unary known defined ih ?_
    rintro c rfl
    cases inner with
    | const finite => exact finite
  | binary defined left right ihLeft ihRight => exact .binary known defined ihLeft ihRight
  | sizeOf type => exact .sizeOf known type
  | assign defined left right ihLeft ihRight => exact .assign known defined ihLeft ihRight

/-! ## Readable expressions -/

variable (structs) in
/-- Expressions with a text of their own: the names are words that mean no type, the types and constants have
    a spelling, nothing stands behind `sizeof`, and no cast is assigned to. -/
inductive CExpr.Readable : CExpr → Prop
  | ident {n : String} (word : isWord n = true) (object : isObjectName structs n = true) : Readable (.ident n)
  | const {c : Const} (readable : c.Readable) : Readable (.const c)
  | member {x : CExpr} {op : MemberOp} {f : String} (inner : Readable x) (isTarget : x.isSizeOf = false)
      (word : isWord f = true) (name : isName f = true) : Readable (.member x op f)
  | call {x : CExpr} {args : List CExpr} (callee : Readable x) (isTarget : x.isSizeOf = false)
      (inner : ∀ a ∈ args, Readable a) : Readable (.call x args)
  | cast {t : CType} {x : CExpr} (type : t.Readable structs) (inner : Readable x) : Readable (.cast t x)
  | unary {p : Punct} {op : UnaryOp} {x : CExpr} (known : (p, op) ∈ prefixes) (inner : Readable x) : Readable (.unary op x)
  | binary {p : Punct} {k : Nat} {op : BinaryOp} {x y : CExpr} (known : (p, op, k) ∈ binaries) (left : Readable x)
      (right : Readable y) : Readable (.binary op x y)
  | sizeOf {t : CType} (type : t.Readable structs) : Readable (.sizeOf t)
  | assign {p : Punct} {op : AssignOp} {x y : CExpr} (known : (p, op) ∈ assigns) (assignable : x.isCast = false)
      (left : Readable x) (right : Readable y) : Readable (.assign op x y)

theorem readings_self : ∀ {xs : List CExpr}, (∀ a ∈ xs, a.reading = some a) → readings xs = some xs
  | [], _ => rfl
  | x :: xs, same => by
    rw [List.forall_mem_cons] at same
    rw [readings, same.1, readings_self same.2]
    rfl

theorem CExpr.Readable.apart {op : UnaryOp} (readable : x.Readable structs) : x.merges op = false := by
  cases readable with
  | const readable => simp [CExpr.merges, readable.reading.2.1]
  | _ => rfl

theorem CExpr.Readable.proper (readable : x.Readable structs) : x.Proper structs := by
  induction readable with
  | ident word object => exact .ident word object
  | const readable => exact .const readable.reading.1
  | member _ _ word name ih => exact .member ih word name
  | call _ _ _ ihCallee ihArgs => exact .call ihCallee ihArgs
  | cast type _ ih => exact .cast type.proper.1 ih
  | unary isPrefix _ ih =>
    have every : ∀ e ∈ prefixes, e.2 ∈ UnaryOp.all := by decide
    exact .unary (every _ isPrefix) ih
  | binary isBinary _ _ ihLeft ihRight =>
    have every : ∀ e ∈ binaries, e.2.1 ∈ BinaryOp.all := by decide
    exact .binary (every _ isBinary) ihLeft ihRight
  | sizeOf type => exact .sizeOf type.proper.1
  | assign isAssign _ _ _ ihLeft ihRight =>
    have every : ∀ e ∈ assigns, e.2 ∈ AssignOp.all := by decide
    exact .assign (every _ isAssign) ihLeft ihRight

/-- Readable expressions are read as they are. -/
theorem CExpr.Readable.reading (readable : x.Readable structs) : x.reading = some x := by
  induction readable with
  | ident => rfl
  | const readable => rw [CExpr.reading, readable.reading.2.2]
  | member _ isTarget _ _ ih => rw [CExpr.reading, tight, isTarget, if_neg Bool.false_ne_true, ih, Option.map_some]
  | call _ isTarget _ ihCallee ihArgs =>
    rw [CExpr.reading, tight, isTarget, if_neg Bool.false_ne_true, ihCallee, readings_self ihArgs]
    rfl
  | cast type _ ih => rw [CExpr.reading, ih, type.proper.2, Option.map_some]
  | unary isPrefix inner ih =>
    rw [CExpr.reading, (prefixes_spelled _ isPrefix).2.2.1, inner.apart, ih]
    rfl
  | @binary p k op x y isBinary _ _ ihLeft ihRight =>
    have every : ∀ e ∈ binaries, (e.2.1 == .index) = false := by decide
    have notIndex : (op == .index) = false := every _ isBinary
    rw [CExpr.reading, notIndex, if_neg Bool.false_ne_true, ihLeft, ihRight]
    rfl
  | sizeOf type => rw [CExpr.reading, type.proper.2]
  | assign _ assignable _ _ ihLeft ihRight =>
    rw [CExpr.reading, assignable, if_neg Bool.false_ne_true, ihLeft, ihRight]
    rfl

/-- Readable expressions are read back from their text. -/
theorem CExpr.Readable.read (known : AreStructs structs) (readable : x.Readable structs) :
    ∃ ts, Alone structs (x.text .whole) ts x := by
  obtain ⟨ts, standing⟩ := (readable.proper.read known).standing
  rw [readable.reading] at standing
  exact ⟨ts, standing.alone⟩

end
end PineLang.C
