import PineLang.Syntax.Parser

/-!
The grammar of the language, apart from the parser: which lexemes are an expression, a statement, a
declaration or a file, and which tree they stand for. A judgement names the lexemes it covers and no
others, so a derivation says nothing of what was looked at ahead.

As it stands the grammar leaves open to which `if` an `else` belongs. The flag `nearest` closes the
question: with it, an `else` never passes over an `if` that could still take it.
-/
namespace PineLang

/-- The kind as which a lexeme is read. -/
def Lexeme.kind (l : Lexeme) : Kind := l.toToken.kind

/-- The place of a lexeme. -/
def Lexeme.span (l : Lexeme) : Span := l.toToken.span

/-- The text of a lexeme. -/
def Lexeme.text (l : Lexeme) : String := l.toToken.text

theorem reports_of_kind {l : Lexeme} (known : l.kind ≠ .invalid) : l.reports = [] := by
  cases l with
  | token => rfl
  | error => exact absurd rfl known

namespace Grammar

/-! ## Types and fields -/

/-- The type that a lexeme names. -/
def annotation? (l : Lexeme) : Option TypeRef :=
  match l.kind.primitive?, l.kind with
  | some ty, _ => some ⟨ty, l.span⟩
  | none, .underscore => some ⟨.unit, l.span⟩
  | none, .ident => some ⟨.struct l.text, l.span⟩
  | none, _ => none

/-- `name: type`. -/
inductive Field : List Lexeme → Param → Prop
  | mk {name colon type : Lexeme} {ref : TypeRef} (isName : name.kind = .ident)
      (isColon : colon.kind = .colon) (isType : annotation? type = some ref) :
      Field [name, colon, type] ⟨name.text, ref, name.span.cover ref.span⟩

/-! ## Expressions -/

/-- The expression that a lexeme is by itself. -/
def leaf? (l : Lexeme) : Option Expr :=
  match l.kind with
  | .ident => some (.ident l.span l.text)
  | .kwSelf => some (.ident l.span "self")
  | .intLit => some (.lit l.span (.int l.toToken.payload.toInt l.text))
  | .floatLit => some (.lit l.span (.float l.toToken.payload.toFloat l.text))
  | .stringLit => some (.lit l.span (.string l.text))
  | .kwTrue => some (.lit l.span (.bool true))
  | .kwFalse => some (.lit l.span (.bool false))
  | .kwNil => some (.lit l.span .nil)
  | _ => none

/-- What can be assigned to: a variable or a field. -/
inductive Target : Expr → Prop
  | variable {span : Span} {name : String} : Target (.ident span name)
  | field {span fieldSpan : Span} {object : Expr} {name : String} :
      Target (.member span object name fieldSpan)

mutual

/-- Expressions whose operators have at least the given precedence. Binary operators bind to the
    left; assignment binds to the right. -/
inductive Expression : Nat → List Lexeme → Expr → Prop
  | operand {least : Nat} {ts : List Lexeme} {e : Expr} (inner : Prefixed ts e) : Expression least ts e
  | binary {least : Nat} {ls rs : List Lexeme} {left right : Expr} {sign : Lexeme} {op : BinaryOp}
      (lhs : Expression op.precedence ls left) (isOp : sign.kind.joiner? = some (.op op))
      (bound : least ≤ op.precedence) (rhs : Expression (op.precedence + 1) rs right) :
      Expression least (ls ++ sign :: rs) (.binary (left.span.cover right.span) op left right)
  | assign {least : Nat} {ls rs : List Lexeme} {left right : Expr} {sign : Lexeme}
      (lhs : Prefixed ls left) (isTarget : Target left) (isAssign : sign.kind = .assign)
      (bound : least ≤ 1) (rhs : Expression 1 rs right) :
      Expression least (ls ++ sign :: rs) (.assign (left.span.cover right.span) left right)

/-- Operands with their prefix operators. -/
inductive Prefixed : List Lexeme → Expr → Prop
  | plain {ts : List Lexeme} {e : Expr} (inner : Postfixed ts e) : Prefixed ts e
  | sign {sign : Lexeme} {ts : List Lexeme} {e : Expr} {op : UnaryOp} (isOp : sign.kind.unary? = some op)
      (inner : Prefixed ts e) : Prefixed (sign :: ts) (.unary (sign.span.cover e.span) op e)

/-- Operands with their calls and field accesses. -/
inductive Postfixed : List Lexeme → Expr → Prop
  | plain {ts : List Lexeme} {e : Expr} (inner : Primary ts e) : Postfixed ts e
  | call {fs as : List Lexeme} {f : Expr} {args : List Expr} {opening closing : Lexeme}
      (callee : Postfixed fs f) (opens : opening.kind = .lparen) (inner : Arguments as args)
      (closes : closing.kind = .rparen) :
      Postfixed (fs ++ opening :: (as ++ [closing])) (.call (f.span.cover closing.span) f args)
  | member {ts : List Lexeme} {e : Expr} {point field : Lexeme} (target : Postfixed ts e)
      (isPoint : point.kind = .dot) (isName : field.kind = .ident) :
      Postfixed (ts ++ [point, field]) (.member (e.span.cover field.span) e field.text field.span)

/-- Names, literals, groups and struct literals. -/
inductive Primary : List Lexeme → Expr → Prop
  | leaf {l : Lexeme} {e : Expr} (isLeaf : leaf? l = some e) : Primary [l] e
  | group {ts : List Lexeme} {e : Expr} {opening closing : Lexeme} (opens : opening.kind = .lparen)
      (inner : Expression 0 ts e) (closes : closing.kind = .rparen) :
      Primary (opening :: (ts ++ [closing])) (.group (opening.span.cover closing.span) e)
  | literal {name opening closing : Lexeme} {ts : List Lexeme} {fields : List FieldInit}
      (isName : name.kind = .ident) (opens : opening.kind = .lbrace) (inner : Inits ts fields)
      (closes : closing.kind = .rbrace) :
      Primary (name :: opening :: (ts ++ [closing]))
        (.structLit (name.span.cover closing.span) name.text name.span fields)

/-- Expressions with commas between them; one comma may trail. -/
inductive Arguments : List Lexeme → List Expr → Prop
  | none : Arguments [] []
  | last {ts : List Lexeme} {e : Expr} (arg : Expression 0 ts e) : Arguments ts [e]
  | more {ts us : List Lexeme} {e : Expr} {es : List Expr} {comma : Lexeme} (arg : Expression 0 ts e)
      (isComma : comma.kind = .comma) (rest : Arguments us es) : Arguments (ts ++ comma :: us) (e :: es)

/-- Fields of a struct literal with commas between them; one comma may trail. -/
inductive Inits : List Lexeme → List FieldInit → Prop
  | none : Inits [] []
  | last {name colon : Lexeme} {ts : List Lexeme} {e : Expr} (isName : name.kind = .ident)
      (isColon : colon.kind = .colon) (value : Expression 0 ts e) :
      Inits (name :: colon :: ts) [.mk name.text (name.span.cover e.span) e]
  | more {name colon comma : Lexeme} {ts us : List Lexeme} {e : Expr} {fs : List FieldInit}
      (isName : name.kind = .ident) (isColon : colon.kind = .colon) (value : Expression 0 ts e)
      (isComma : comma.kind = .comma) (rest : Inits us fs) :
      Inits (name :: colon :: (ts ++ comma :: us)) (.mk name.text (name.span.cover e.span) e :: fs)

end

/-! ## Statements -/

/-- What stands between a statement and the next one. A statement that ended in an indented body
    has taken the end of its line. -/
inductive Separator : Bool → List Lexeme → Prop
  | closed : Separator true []
  | line {l : Lexeme} (isBreak : l.kind = .newLine) : Separator false [l]

/-- What stands between the last statement of an indented body and the body's end. -/
inductive LastSeparator : Bool → List Lexeme → Prop
  | none {closed : Bool} : LastSeparator closed []
  | line {l : Lexeme} (isBreak : l.kind = .newLine) : LastSeparator false [l]

mutual

/-- Statements. The first flag says that the statement ended in an indented body, the second that
    it ended in an `if` that an `else` could still continue. -/
inductive Statement (nearest : Bool) : List Lexeme → Stmt → Bool → Bool → Prop
  | only {head colon : Lexeme} {ts bs : List Lexeme} {test : Expr} {yes : Body} {closed opened : Bool}
      (isIf : head.kind = .kwIf) (cond : Expression 0 ts test) (isColon : colon.kind = .colon)
      (first : Block nearest bs yes closed opened) :
      Statement nearest (head :: (ts ++ colon :: bs)) (.cond (head.span.cover yes.span) test yes none)
        closed true
  | both {head colon other colon' : Lexeme} {ts bs cs : List Lexeme} {test : Expr} {yes no : Body}
      {closed closed' opened opened' : Bool} (isIf : head.kind = .kwIf) (cond : Expression 0 ts test)
      (isColon : colon.kind = .colon) (first : Block nearest bs yes closed opened)
      (free : nearest = true → opened = false) (isElse : other.kind = .kwElse)
      (isColon' : colon'.kind = .colon) (second : Block nearest cs no closed' opened') :
      Statement nearest (head :: (ts ++ colon :: (bs ++ other :: colon' :: cs)))
        (.cond (head.span.cover no.span) test yes (some no)) closed' opened'
  | chain {head colon other : Lexeme} {ts bs cs : List Lexeme} {test test' : Expr} {yes yes' : Body}
      {no' : Option Body} {span : Span} {closed closed' opened opened' : Bool}
      (isIf : head.kind = .kwIf) (cond : Expression 0 ts test) (isColon : colon.kind = .colon)
      (first : Block nearest bs yes closed opened) (free : nearest = true → opened = false)
      (isElse : other.kind = .kwElse)
      (second : Statement nearest cs (.cond span test' yes' no') closed' opened') :
      Statement nearest (head :: (ts ++ colon :: (bs ++ other :: cs)))
        (.cond (head.span.cover span) test yes (some (.block span [.cond span test' yes' no'])))
        closed' opened'
  | bare {head : Lexeme} (isReturn : head.kind = .kwReturn) :
      Statement nearest [head] (.ret head.span none) false false
  | value {head : Lexeme} {ts : List Lexeme} {e : Expr} (isReturn : head.kind = .kwReturn)
      (inner : Expression 0 ts e) :
      Statement nearest (head :: ts) (.ret (head.span.cover e.span) (some e)) false false
  | leave {head : Lexeme} (isBreak : head.kind = .kwBreak) :
      Statement nearest [head] (.brk head.span) false false
  | loop {head colon : Lexeme} {bs : List Lexeme} {body : Body} {closed opened : Bool}
      (isLoop : head.kind = .kwLoop) (isColon : colon.kind = .colon)
      (inner : Block nearest bs body closed opened) :
      Statement nearest (head :: colon :: bs) (.loop (head.span.cover body.span) body) closed opened
  | bind {head name colon type sign : Lexeme} {ts : List Lexeme} {ref : TypeRef} {e : Expr}
      (isLet : head.kind = .kwLet) (isName : name.kind = .ident) (isColon : colon.kind = .colon)
      (isType : annotation? type = some ref) (isAssign : sign.kind = .assign)
      (inner : Expression 0 ts e) :
      Statement nearest (head :: name :: colon :: type :: sign :: ts)
        (.bind (head.span.cover e.span) name.text name.span ref e) false false
  | empty {head : Lexeme} (isUnderscore : head.kind = .underscore) :
      Statement nearest [head] (.empty head.span) false false
  | expr {ts : List Lexeme} {e : Expr} (inner : Expression 0 ts e) :
      Statement nearest ts (.expr e.span e) false false

/-- What follows a colon: one statement on the same line, or an indented body, inside which no
    `else` that follows reaches. -/
inductive Block (nearest : Bool) : List Lexeme → Body → Bool → Bool → Prop
  | line {ts : List Lexeme} {s : Stmt} {closed opened : Bool}
      (inner : Statement nearest ts s closed opened) :
      Block nearest ts (.block s.span [s]) closed opened
  | indented {first second : Lexeme} {ts : List Lexeme} {ss : List Stmt}
      (isBreak : first.kind = .newLine) (isIndent : second.kind = .indent)
      (inner : Lines nearest ts ss) :
      Block nearest (first :: second :: ts) (.block (Parser.stmtsSpan ss) ss) true false

/-- The statements of an indented body, and its end. -/
inductive Lines (nearest : Bool) : List Lexeme → List Stmt → Prop
  | last {ts sep : List Lexeme} {s : Stmt} {closed opened : Bool} {stop : Lexeme}
      (inner : Statement nearest ts s closed opened) (ends : LastSeparator closed sep)
      (isDedent : stop.kind = .dedent) : Lines nearest (ts ++ (sep ++ [stop])) [s]
  | more {ts sep us : List Lexeme} {s : Stmt} {ss : List Stmt} {closed opened : Bool}
      (inner : Statement nearest ts s closed opened) (ends : Separator closed sep)
      (rest : Lines nearest us ss) : Lines nearest (ts ++ (sep ++ us)) (s :: ss)

end

/-! ## Declarations -/

/-- Parameters with commas between them. -/
inductive Params : List Lexeme → List Param → Prop
  | last {ts : List Lexeme} {p : Param} (field : Field ts p) : Params ts [p]
  | more {ts us : List Lexeme} {p : Param} {ps : List Param} {comma : Lexeme} (field : Field ts p)
      (isComma : comma.kind = .comma) (rest : Params us ps) : Params (ts ++ comma :: us) (p :: ps)

/-- The fields of an indented struct, one to a line, and its end. -/
inductive FieldLines : List Lexeme → List Param → Prop
  | last {ts sep : List Lexeme} {p : Param} {stop : Lexeme} (field : Field ts p)
      (ends : LastSeparator false sep) (isDedent : stop.kind = .dedent) :
      FieldLines (ts ++ (sep ++ [stop])) [p]
  | more {ts sep us : List Lexeme} {p : Param} {ps : List Param} (field : Field ts p)
      (ends : Separator false sep) (rest : FieldLines us ps) :
      FieldLines (ts ++ (sep ++ us)) (p :: ps)

/-- The fields of a struct in braces, with commas between them; one comma may trail. -/
inductive BracedFields : List Lexeme → List Param → Prop
  | none : BracedFields [] []
  | last {ts : List Lexeme} {p : Param} (field : Field ts p) : BracedFields ts [p]
  | more {ts us : List Lexeme} {p : Param} {ps : List Param} {comma : Lexeme} (field : Field ts p)
      (isComma : comma.kind = .comma) (rest : BracedFields us ps) :
      BracedFields (ts ++ comma :: us) (p :: ps)

/-- The parameters of a function between its parentheses. -/
inductive ParamList : List Lexeme → List Param → Prop
  | none : ParamList [] []
  | some {ts : List Lexeme} {ps : List Param} (params : Params ts ps) : ParamList ts ps

/-- Functions and structs. The flag says that the declaration ended in an indented body. -/
inductive Declaration (nearest : Bool) : List Lexeme → Item → Bool → Prop
  | fn {head name opening closing arrow type colon : Lexeme} {ps bs : List Lexeme}
      {params : List Param} {ref : TypeRef} {body : Body} {closed opened : Bool}
      (isFun : head.kind = .kwFun) (isName : name.kind = .ident) (opens : opening.kind = .lparen)
      (fields : ParamList ps params) (closes : closing.kind = .rparen) (isArrow : arrow.kind = .arrow)
      (isType : annotation? type = some ref) (isColon : colon.kind = .colon)
      (inner : Block nearest bs body closed opened) :
      Declaration nearest (head :: name :: opening :: (ps ++ closing :: arrow :: type :: colon :: bs))
        (.fn ⟨name.text, name.span, params, ref, body, head.span.cover body.span⟩) closed
  | indented {head name colon first second : Lexeme} {ts : List Lexeme} {params : List Param}
      (isType : head.kind = .kwType) (isName : name.kind = .ident) (isColon : colon.kind = .colon)
      (isBreak : first.kind = .newLine) (isIndent : second.kind = .indent)
      (fields : FieldLines ts params) :
      Declaration nearest (head :: name :: colon :: first :: second :: ts)
        (.struct ⟨name.text, name.span, params,
          head.span.cover ((params.getLast?.map (·.span)).getD {})⟩) true
  | braced {head name opening closing : Lexeme} {ts : List Lexeme} {params : List Param}
      (isType : head.kind = .kwType) (isName : name.kind = .ident) (opens : opening.kind = .lbrace)
      (fields : BracedFields ts params) (closes : closing.kind = .rbrace) :
      Declaration nearest (head :: name :: opening :: (ts ++ [closing]))
        (.struct ⟨name.text, name.span, params, head.span.cover closing.span⟩) false

/-- Declarations and the line breaks around them. The line break behind the last one may be
    missing. -/
inductive Declarations (nearest : Bool) : List Lexeme → List Item → Prop
  | none : Declarations nearest [] []
  | skip {l : Lexeme} {ts : List Lexeme} {is : List Item} (isBreak : l.kind = .newLine)
      (rest : Declarations nearest ts is) : Declarations nearest (l :: ts) is
  | more {ts sep us : List Lexeme} {i : Item} {is : List Item} {closed : Bool}
      (inner : Declaration nearest ts i closed)
      (ends : Separator closed sep ∨ sep = [] ∧ us = [])
      (rest : Declarations nearest us is) : Declarations nearest (ts ++ (sep ++ us)) (i :: is)

/-- A file: declarations up to the end of the source. -/
inductive Source (nearest : Bool) : List Lexeme → File → Prop
  | mk {ts : List Lexeme} {is : List Item} {stop : Lexeme} (inner : Declarations nearest ts is)
      (ends : stop.kind = .eof) :
      Source nearest (ts ++ [stop]) ⟨(((ts ++ [stop]).head?.map Lexeme.span).getD {}).cover stop.span, is⟩

/-! ## No derivation takes an error or the end of the file -/

/-- None of the lexemes is an error or the end of the file. -/
def Proper (ts : List Lexeme) : Prop := ∀ l ∈ ts, l.kind ≠ .eof ∧ l.kind ≠ .invalid

@[simp] theorem proper_nil : Proper [] := List.forall_mem_nil _

@[simp] theorem proper_cons {l : Lexeme} {ts : List Lexeme} :
    Proper (l :: ts) ↔ (l.kind ≠ .eof ∧ l.kind ≠ .invalid) ∧ Proper ts :=
  List.forall_mem_cons

@[simp] theorem proper_append {ts us : List Lexeme} : Proper (ts ++ us) ↔ Proper ts ∧ Proper us :=
  List.forall_mem_append

theorem Proper.noEnd {ts : List Lexeme} (proper : Proper ts) : ∀ l ∈ ts, l.kind ≠ .eof :=
  fun l member => (proper l member).1

theorem proper_annotation {l : Lexeme} {ref : TypeRef} (isType : annotation? l = some ref) :
    l.kind ≠ .eof ∧ l.kind ≠ .invalid := by
  refine ⟨fun atEnd => ?_, fun invalid => ?_⟩
  · simp [annotation?, atEnd, Kind.primitive?] at isType
  · simp [annotation?, invalid, Kind.primitive?] at isType

theorem proper_leaf {l : Lexeme} {e : Expr} (isLeaf : leaf? l = some e) :
    l.kind ≠ .eof ∧ l.kind ≠ .invalid := by
  refine ⟨fun atEnd => ?_, fun invalid => ?_⟩
  · simp [leaf?, atEnd] at isLeaf
  · simp [leaf?, invalid] at isLeaf

theorem proper_joiner {l : Lexeme} {op : Joiner} (isOp : l.kind.joiner? = some op) :
    l.kind ≠ .eof ∧ l.kind ≠ .invalid := by
  refine ⟨fun atEnd => ?_, fun invalid => ?_⟩
  · simp [atEnd, Kind.joiner?] at isOp
  · simp [invalid, Kind.joiner?] at isOp

theorem proper_unary {l : Lexeme} {op : UnaryOp} (isOp : l.kind.unary? = some op) :
    l.kind ≠ .eof ∧ l.kind ≠ .invalid := by
  refine ⟨fun atEnd => ?_, fun invalid => ?_⟩
  · simp [atEnd, Kind.unary?] at isOp
  · simp [invalid, Kind.unary?] at isOp

theorem Field.proper {ts : List Lexeme} {p : Param} : Field ts p → Proper ts
  | .mk isName isColon isType => by simp [isName, isColon, proper_annotation isType]

mutual

theorem Expression.proper {least : Nat} {ts : List Lexeme} {e : Expr} : Expression least ts e → Proper ts
  | .operand inner => inner.proper
  | .binary lhs isOp _ rhs => by simp [lhs.proper, proper_joiner isOp, rhs.proper]
  | .assign lhs _ isAssign _ rhs => by simp [lhs.proper, isAssign, rhs.proper]

theorem Prefixed.proper {ts : List Lexeme} {e : Expr} : Prefixed ts e → Proper ts
  | .plain inner => inner.proper
  | .sign isOp inner => by simp [proper_unary isOp, inner.proper]

theorem Postfixed.proper {ts : List Lexeme} {e : Expr} : Postfixed ts e → Proper ts
  | .plain inner => inner.proper
  | .call callee opens inner closes => by simp [callee.proper, opens, inner.proper, closes]
  | .member target isPoint isName => by simp [target.proper, isPoint, isName]

theorem Primary.proper {ts : List Lexeme} {e : Expr} : Primary ts e → Proper ts
  | .leaf isLeaf => by simp [proper_leaf isLeaf]
  | .group opens inner closes => by simp [opens, inner.proper, closes]
  | .literal isName opens inner closes => by simp [isName, opens, inner.proper, closes]

theorem Arguments.proper {ts : List Lexeme} {es : List Expr} : Arguments ts es → Proper ts
  | .none => by simp
  | .last arg => arg.proper
  | .more arg isComma rest => by simp [arg.proper, isComma, rest.proper]

theorem Inits.proper {ts : List Lexeme} {fs : List FieldInit} : Inits ts fs → Proper ts
  | .none => by simp
  | .last isName isColon value => by simp [isName, isColon, value.proper]
  | .more isName isColon value isComma rest => by simp [isName, isColon, value.proper, isComma, rest.proper]

end

theorem Separator.proper {closed : Bool} {ts : List Lexeme} : Separator closed ts → Proper ts
  | .closed => by simp
  | .line isBreak => by simp [isBreak]

theorem LastSeparator.proper {closed : Bool} {ts : List Lexeme} : LastSeparator closed ts → Proper ts
  | .none => by simp
  | .line isBreak => by simp [isBreak]

mutual

theorem Statement.proper {nearest closed opened : Bool} {ts : List Lexeme} {s : Stmt} :
    Statement nearest ts s closed opened → Proper ts
  | .only isIf cond isColon first => by simp [isIf, cond.proper, isColon, first.proper]
  | .both isIf cond isColon first _ isElse isColon' second => by
    simp [isIf, cond.proper, isColon, first.proper, isElse, isColon', second.proper]
  | .chain isIf cond isColon first _ isElse second => by
    simp [isIf, cond.proper, isColon, first.proper, isElse, second.proper]
  | .bare isReturn => by simp [isReturn]
  | .value isReturn inner => by simp [isReturn, inner.proper]
  | .leave isBreak => by simp [isBreak]
  | .loop isLoop isColon inner => by simp [isLoop, isColon, inner.proper]
  | .bind isLet isName isColon isType isAssign inner => by
    simp [isLet, isName, isColon, proper_annotation isType, isAssign, inner.proper]
  | .empty isUnderscore => by simp [isUnderscore]
  | .expr inner => inner.proper

theorem Block.proper {nearest closed opened : Bool} {ts : List Lexeme} {b : Body} :
    Block nearest ts b closed opened → Proper ts
  | .line inner => inner.proper
  | .indented isBreak isIndent inner => by simp [isBreak, isIndent, inner.proper]

theorem Lines.proper {nearest : Bool} {ts : List Lexeme} {ss : List Stmt} : Lines nearest ts ss → Proper ts
  | .last inner ends isDedent => by simp [inner.proper, ends.proper, isDedent]
  | .more inner ends rest => by simp [inner.proper, ends.proper, rest.proper]

end

theorem Params.proper {ts : List Lexeme} {ps : List Param} : Params ts ps → Proper ts
  | .last field => field.proper
  | .more field isComma rest => by simp [field.proper, isComma, rest.proper]

theorem FieldLines.proper {ts : List Lexeme} {ps : List Param} : FieldLines ts ps → Proper ts
  | .last field ends isDedent => by simp [field.proper, ends.proper, isDedent]
  | .more field ends rest => by simp [field.proper, ends.proper, rest.proper]

theorem BracedFields.proper {ts : List Lexeme} {ps : List Param} : BracedFields ts ps → Proper ts
  | .none => by simp
  | .last field => field.proper
  | .more field isComma rest => by simp [field.proper, isComma, rest.proper]

theorem ParamList.proper {ts : List Lexeme} {ps : List Param} : ParamList ts ps → Proper ts
  | .none => by simp
  | .some params => params.proper

theorem Declaration.proper {nearest closed : Bool} {ts : List Lexeme} {i : Item} :
    Declaration nearest ts i closed → Proper ts
  | .fn isFun isName opens fields closes isArrow isType isColon inner => by
    simp [isFun, isName, opens, fields.proper, closes, isArrow, proper_annotation isType, isColon, inner.proper]
  | .indented isType isName isColon isBreak isIndent fields => by
    simp [isType, isName, isColon, isBreak, isIndent, fields.proper]
  | .braced isType isName opens fields closes => by simp [isType, isName, opens, fields.proper, closes]

theorem Declarations.proper {nearest : Bool} {ts : List Lexeme} {is : List Item} :
    Declarations nearest ts is → Proper ts
  | .none => by simp
  | .skip isBreak rest => by simp [isBreak, rest.proper]
  | .more inner (.inl separator) rest => by simp [inner.proper, separator.proper, rest.proper]
  | .more inner (.inr ⟨bare, _⟩) rest => by simp [inner.proper, bare, rest.proper]

/-! ## First lexemes -/

/-- A kind with which an expression can start. -/
def startsExpr : Kind → Bool
  | .ident | .kwSelf | .intLit | .floatLit | .stringLit | .kwTrue | .kwFalse | .kwNil | .lparen
  | .minus | .bang => true
  | _ => false

theorem startsExpr_of_leaf {l : Lexeme} {e : Expr} (isLeaf : leaf? l = some e) :
    startsExpr l.kind = true ∧ l.kind.unary? = none := by
  unfold leaf? at isLeaf
  split at isLeaf <;> cases isLeaf <;> next kind => rw [kind]; exact ⟨rfl, rfl⟩

theorem startsExpr_of_unary {k : Kind} {op : UnaryOp} (isOp : k.unary? = some op) : startsExpr k = true := by
  cases k <;> first | rfl | cases isOp

theorem Primary.first {ts : List Lexeme} {e : Expr} (derived : Primary ts e) :
    ∃ l us, ts = l :: us ∧ startsExpr l.kind = true ∧ l.kind.unary? = none := by
  cases derived with
  | leaf isLeaf => exact ⟨_, _, rfl, startsExpr_of_leaf isLeaf⟩
  | group opens => exact ⟨_, _, rfl, by rw [opens]; exact ⟨rfl, rfl⟩⟩
  | literal isName => exact ⟨_, _, rfl, by rw [isName]; exact ⟨rfl, rfl⟩⟩

theorem Postfixed.first {ts : List Lexeme} {e : Expr} :
    Postfixed ts e → ∃ l us, ts = l :: us ∧ startsExpr l.kind = true ∧ l.kind.unary? = none
  | .plain inner => inner.first
  | .call callee _ _ _ => by
    obtain ⟨l, us, rfl, starts⟩ := callee.first
    exact ⟨l, _, rfl, starts⟩
  | .member target _ _ => by
    obtain ⟨l, us, rfl, starts⟩ := target.first
    exact ⟨l, _, rfl, starts⟩

theorem Prefixed.first {ts : List Lexeme} {e : Expr} (derived : Prefixed ts e) :
    ∃ l us, ts = l :: us ∧ startsExpr l.kind = true := by
  cases derived with
  | plain inner =>
    obtain ⟨l, us, rfl, starts, _⟩ := inner.first
    exact ⟨l, us, rfl, starts⟩
  | sign isOp => exact ⟨_, _, rfl, startsExpr_of_unary isOp⟩

theorem Expression.first {least : Nat} {ts : List Lexeme} {e : Expr} :
    Expression least ts e → ∃ l us, ts = l :: us ∧ startsExpr l.kind = true
  | .operand inner => inner.first
  | .binary lhs _ _ _ => by
    obtain ⟨l, us, rfl, starts⟩ := lhs.first
    exact ⟨l, _, rfl, starts⟩
  | .assign lhs _ _ _ _ => by
    obtain ⟨l, us, rfl, starts⟩ := lhs.first
    exact ⟨l, _, rfl, starts⟩

end Grammar
end PineLang
