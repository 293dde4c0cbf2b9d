import PineLang.Proofs.ParserComplete

/-!
The parser is the grammar. An `else` that the grammar could give to several statements goes to the
nearest `if` that is still open, and this choice refuses no file: where a derivation passes over an
open `if`, the `else` is handed down to that one (`Block.attach`).
-/
namespace PineLang
open PineLang.Parser
namespace Grammar

/-- The lexemes from an `else` on, and the branch they stand for. -/
inductive Branch (nearest : Bool) : List Lexeme → Body → Bool → Bool → Prop
  | block {other colon : Lexeme} {cs : List Lexeme} {no : Body} {closed opened : Bool}
      (isElse : other.kind = .kwElse) (isColon : colon.kind = .colon)
      (inner : Block nearest cs no closed opened) : Branch nearest (other :: colon :: cs) no closed opened
  | chain {other : Lexeme} {cs : List Lexeme} {span : Span} {test : Expr} {yes : Body} {no : Option Body}
      {closed opened : Bool} (isElse : other.kind = .kwElse)
      (inner : Statement nearest cs (.cond span test yes no) closed opened) :
      Branch nearest (other :: cs) (.block span [.cond span test yes no]) closed opened

/-- A statement that starts with `if` is one. -/
theorem Statement.cond_of_look {nearest closed opened : Bool} {ts : List Lexeme} {s : Stmt}
    (derived : Statement nearest ts s closed opened) (atIf : look (ts ++ []) = .kwIf) :
    ∃ span test yes no, s = .cond span test yes no := by
  cases derived with
  | only => exact ⟨_, _, _, _, rfl⟩
  | both => exact ⟨_, _, _, _, rfl⟩
  | chain => exact ⟨_, _, _, _, rfl⟩
  | expr inner => exact absurd atIf (inner.look_ne rfl [])
  | bare kind | value kind | leave kind | loop kind | bind kind | empty kind =>
    simp [kind] at atIf

/-- An `if` takes a branch, or hands it down to an open `if` inside it. -/
theorem Statement.settle {head colon : Lexeme} {ts bs us : List Lexeme} {test : Expr} {yes no : Body}
    {closed closed' opened opened' : Bool} (isIf : head.kind = .kwIf) (cond : Expression 0 ts test)
    (isColon : colon.kind = .colon) (first : Block true bs yes closed opened)
    (branch : Branch true us no closed' opened')
    (hand : opened = true → ∃ b o, Block true (bs ++ us) b closed' o) :
    ∃ s o, Statement true (head :: (ts ++ colon :: (bs ++ us))) s closed' o := by
  cases opened with
  | false =>
    cases branch with
    | block isElse isColon' inner =>
      exact ⟨_, _, .both isIf cond isColon first (fun _ => rfl) isElse isColon' inner⟩
    | chain isElse inner => exact ⟨_, _, .chain isIf cond isColon first (fun _ => rfl) isElse inner⟩
  | true =>
    obtain ⟨b, o, inner⟩ := hand rfl
    exact ⟨_, true, .only isIf cond isColon inner⟩

mutual

/-- The nearest open `if` of a statement takes a branch that follows. -/
theorem Statement.attach {ts us : List Lexeme} {s : Stmt} {no : Body} {closed closed' opened opened' : Bool} :
    Statement true ts s closed opened → opened = true → Branch true us no closed' opened' →
      ∃ s' o, Statement true (ts ++ us) s' closed' o
  | .only isIf cond isColon first, _, branch => by
    simp only [List.cons_append, List.append_assoc]
    exact Statement.settle isIf cond isColon first branch (fun isOpen => first.attach isOpen branch)
  | .both isIf cond isColon first free isElse isColon' second, isOpen, branch => by
    obtain ⟨b, o, inner⟩ := second.attach isOpen branch
    simp only [List.cons_append, List.append_assoc]
    exact ⟨_, o, .both isIf cond isColon first free isElse isColon' inner⟩
  | @Statement.chain _ head colon other cs bs ds _ _ _ _ _ _ _ _ _ _ isIf cond isColon first free isElse second, isOpen,
      branch => by
    obtain ⟨nested, o, inner⟩ := second.attach isOpen branch
    have atIf : look (ds ++ us ++ []) = .kwIf := by rw [List.append_assoc]; exact second.look_cond _
    obtain ⟨_, _, _, _, rfl⟩ := inner.cond_of_look atIf
    simp only [List.cons_append, List.append_assoc]
    exact ⟨_, o, .chain isIf cond isColon first free isElse inner⟩
  | .loop isLoop isColon inner, isOpen, branch => by
    obtain ⟨b, o, inner'⟩ := inner.attach isOpen branch
    exact ⟨_, o, .loop isLoop isColon inner'⟩
  | .bare _, isOpen, _ | .value _ _, isOpen, _ | .leave _, isOpen, _ | .empty _, isOpen, _ => nomatch isOpen
  | .bind _ _ _ _ _ _, isOpen, _ => nomatch isOpen
  | .expr _, isOpen, _ => nomatch isOpen
termination_by structural derived => derived

/-- The nearest open `if` at the end of a block takes a branch that follows. -/
theorem Block.attach {ts us : List Lexeme} {b no : Body} {closed closed' opened opened' : Bool} :
    Block true ts b closed opened → opened = true → Branch true us no closed' opened' →
      ∃ b' o, Block true (ts ++ us) b' closed' o
  | .line inner, isOpen, branch => by
    obtain ⟨s, o, inner'⟩ := inner.attach isOpen branch
    exact ⟨_, o, .line inner'⟩
  | .indented _ _ _, isOpen, _ => nomatch isOpen
termination_by structural derived => derived

end

mutual

/-- The lexemes of a statement are one under the rule of the nearest `if`, too. -/
theorem Statement.toNearest {ts : List Lexeme} {s : Stmt} {closed opened : Bool} :
    Statement false ts s closed opened → ∃ s' o, Statement true ts s' closed o
  | .only isIf cond isColon first => by
    obtain ⟨b, o, inner⟩ := first.toNearest
    exact ⟨_, true, .only isIf cond isColon inner⟩
  | .both isIf cond isColon first _ isElse isColon' second => by
    obtain ⟨yes, o, first'⟩ := first.toNearest
    obtain ⟨no, o', second'⟩ := second.toNearest
    have branch : Branch true _ no _ o' := .block isElse isColon' second'
    exact Statement.settle isIf cond isColon first' branch (fun isOpen => first'.attach isOpen branch)
  | .chain isIf cond isColon first _ isElse second => by
    obtain ⟨yes, o, first'⟩ := first.toNearest
    obtain ⟨nested, o', second'⟩ := second.toNearest
    obtain ⟨_, _, _, _, rfl⟩ := second'.cond_of_look (second.look_cond [])
    have branch : Branch true _ _ _ o' := .chain isElse second'
    exact Statement.settle isIf cond isColon first' branch (fun isOpen => first'.attach isOpen branch)
  | .bare isReturn => ⟨_, _, .bare isReturn⟩
  | .value isReturn inner => ⟨_, _, .value isReturn inner⟩
  | .leave isBreak => ⟨_, _, .leave isBreak⟩
  | .loop isLoop isColon inner => by
    obtain ⟨b, o, inner'⟩ := inner.toNearest
    exact ⟨_, o, .loop isLoop isColon inner'⟩
  | .bind isLet isName isColon isType isAssign inner => ⟨_, _, .bind isLet isName isColon isType isAssign inner⟩
  | .empty isUnderscore => ⟨_, _, .empty isUnderscore⟩
  | .expr inner => ⟨_, _, .expr inner⟩
termination_by structural derived => derived

theorem Block.toNearest {ts : List Lexeme} {b : Body} {closed opened : Bool} :
    Block false ts b closed opened → ∃ b' o, Block true ts b' closed o
  | .line inner => by
    obtain ⟨s, o, inner'⟩ := inner.toNearest
    exact ⟨_, o, .line inner'⟩
  | .indented isBreak isIndent inner => by
    obtain ⟨ss, inner'⟩ := inner.toNearest
    exact ⟨_, _, .indented isBreak isIndent inner'⟩
termination_by structural derived => derived

theorem Lines.toNearest {ts : List Lexeme} {ss : List Stmt} : Lines false ts ss → ∃ ss', Lines true ts ss'
  | .last inner ends isDedent => by
    obtain ⟨s, o, inner'⟩ := inner.toNearest
    exact ⟨_, .last inner' ends isDedent⟩
  | .more inner ends rest => by
    obtain ⟨s, o, inner'⟩ := inner.toNearest
    obtain ⟨ss, rest'⟩ := rest.toNearest
    exact ⟨_, .more inner' ends rest'⟩
termination_by structural derived => derived

end

theorem Declaration.toNearest {ts : List Lexeme} {i : Item} {closed : Bool} :
    Declaration false ts i closed → ∃ i', Declaration true ts i' closed
  | .fn isFun isName opens fields closes isArrow isType isColon inner => by
    obtain ⟨b, o, inner'⟩ := inner.toNearest
    exact ⟨_, .fn isFun isName opens fields closes isArrow isType isColon inner'⟩
  | .indented isType isName isColon isBreak isIndent fields =>
    ⟨_, .indented isType isName isColon isBreak isIndent fields⟩
  | .braced isType isName opens fields closes => ⟨_, .braced isType isName opens fields closes⟩

theorem Declarations.toNearest {ts : List Lexeme} {is : List Item} :
    Declarations false ts is → ∃ is', Declarations true ts is'
  | .none => ⟨_, .none⟩
  | .skip isBreak rest => by
    obtain ⟨is', rest'⟩ := rest.toNearest
    exact ⟨is', .skip isBreak rest'⟩
  | .more inner ends rest => by
    obtain ⟨i', inner'⟩ := inner.toNearest
    obtain ⟨is', rest'⟩ := rest.toNearest
    exact ⟨i' :: is', .more inner' ends rest'⟩

theorem Source.toNearest {ts : List Lexeme} {f : File} : Source false ts f → ∃ f', Source true ts f'
  | .mk inner ends => by
    obtain ⟨is', inner'⟩ := inner.toNearest
    exact ⟨_, .mk inner' ends⟩

/-! ## The rule only takes derivations away -/

mutual

theorem Statement.ofNearest {ts : List Lexeme} {s : Stmt} {closed opened : Bool} :
    Statement true ts s closed opened → Statement false ts s closed opened
  | .only isIf cond isColon first => .only isIf cond isColon first.ofNearest
  | .both isIf cond isColon first _ isElse isColon' second =>
    .both isIf cond isColon first.ofNearest nofun isElse isColon' second.ofNearest
  | .chain isIf cond isColon first _ isElse second =>
    .chain isIf cond isColon first.ofNearest nofun isElse second.ofNearest
  | .bare isReturn => .bare isReturn
  | .value isReturn inner => .value isReturn inner
  | .leave isBreak => .leave isBreak
  | .loop isLoop isColon inner => .loop isLoop isColon inner.ofNearest
  | .bind isLet isName isColon isType isAssign inner => .bind isLet isName isColon isType isAssign inner
  | .empty isUnderscore => .empty isUnderscore
  | .expr inner => .expr inner
termination_by structural derived => derived

theorem Block.ofNearest {ts : List Lexeme} {b : Body} {closed opened : Bool} :
    Block true ts b closed opened → Block false ts b closed opened
  | .line inner => .line inner.ofNearest
  | .indented isBreak isIndent inner => .indented isBreak isIndent inner.ofNearest
termination_by structural derived => derived

theorem Lines.ofNearest {ts : List Lexeme} {ss : List Stmt} : Lines true ts ss → Lines false ts ss
  | .last inner ends isDedent => .last inner.ofNearest ends isDedent
  | .more inner ends rest => .more inner.ofNearest ends rest.ofNearest
termination_by structural derived => derived

end

theorem Declaration.ofNearest {ts : List Lexeme} {i : Item} {closed : Bool} :
    Declaration true ts i closed → Declaration false ts i closed
  | .fn isFun isName opens fields closes isArrow isType isColon inner =>
    .fn isFun isName opens fields closes isArrow isType isColon inner.ofNearest
  | .indented isType isName isColon isBreak isIndent fields =>
    .indented isType isName isColon isBreak isIndent fields
  | .braced isType isName opens fields closes => .braced isType isName opens fields closes

theorem Declarations.ofNearest {ts : List Lexeme} {is : List Item} :
    Declarations true ts is → Declarations false ts is
  | .none => .none
  | .skip isBreak rest => .skip isBreak rest.ofNearest
  | .more inner ends rest => .more inner.ofNearest ends rest.ofNearest

theorem Source.ofNearest {ts : List Lexeme} {f : File} : Source true ts f → Source false ts f
  | .mk inner ends => .mk inner.ofNearest ends

end Grammar

/-- The parser accepts exactly the files of the grammar, whatever stands behind their end, and its
    tree is the one in which every `else` belongs to the nearest `if` that is still open. -/
theorem parse_iff_derives (ls post : List Lexeme) (stop : Lexeme) (ends : stop.kind = .eof)
    (inner : ∀ l ∈ ls, l.kind ≠ .eof) :
    ((∃ f, parse (ls ++ stop :: post) = .ok f) ↔ ∃ f, Grammar.Source false (ls ++ [stop]) f) ∧
      ∀ f, parse (ls ++ stop :: post) = .ok f ↔ Grammar.Source true (ls ++ [stop]) f := by
  have exact : ∀ f, parse (ls ++ stop :: post) = .ok f ↔ Grammar.Source true (ls ++ [stop]) f :=
    fun f => ⟨parse_sound ends inner, parse_complete⟩
  refine ⟨⟨?_, ?_⟩, exact⟩
  · rintro ⟨f, run⟩
    exact ⟨f, ((exact f).mp run).ofNearest⟩
  · rintro ⟨f, derived⟩
    obtain ⟨f', nearest⟩ := derived.toNearest
    exact ⟨f', (exact f').mpr nearest⟩

/-- `fun f() -> _: if a: if b: break else: _`, where the grammar alone allows two readings. -/
def danglingElse : List Lexeme :=
  [(.kwFun, "fun"), (.ident, "f"), (.lparen, "("), (.rparen, ")"), (.arrow, "->"), (.underscore, "_"), (.colon, ":"),
   (.kwIf, "if"), (.ident, "a"), (.colon, ":"), (.kwIf, "if"), (.ident, "b"), (.colon, ":"), (.kwBreak, "break"),
   (.kwElse, "else"), (.colon, ":"), (.underscore, "_")].map fun (kind, text) => .token ⟨kind, {}, text, .none⟩

/-- The reading in which the `else` belongs to the second `if`. -/
def innerElse : File :=
  ⟨{}, [.fn ⟨"f", {}, [], ⟨.unit, {}⟩, .block {} [.cond {} (.ident {} "a") (.block {} [.cond {} (.ident {} "b")
    (.block {} [.brk {}]) (some (.block {} [.empty {}]))]) none], {}⟩]⟩

theorem parse_danglingElse :
    parse (danglingElse ++ [Lexeme.token ⟨.eof, {}, "", .none⟩]) = .ok innerElse ∧
      Grammar.Source true (danglingElse ++ [Lexeme.token ⟨.eof, {}, "", .none⟩]) innerElse := by
  have run : parse (danglingElse ++ [Lexeme.token ⟨.eof, {}, "", .none⟩]) = .ok innerElse := by rfl
  exact ⟨run, ((parse_iff_derives danglingElse [] _ rfl (by decide)).2 innerElse).mp run⟩

end PineLang
