import PineLang.C.Tree
import PineLang.Number.Shortest

/-!
# C text

A unit is printed with four spaces per level. An operand that is itself an operation stands in
parentheses, so that the text reads back as the same tree.
-/
namespace PineLang.C

/-! ## Constants -/

/-- A double as a C constant, which always has a point or an exponent. -/
def floatText (x : Double) : String :=
  let s := x.general
  if s.any fun c => c == '.' || c == 'e' || c == 'E' then s else s ++ ".0"

/-- A byte as three octal digits after a backslash. -/
def octalEscape (b : UInt8) : String :=
  let n := b.toNat
  String.ofList ['\\', Nat.digitChar (n / 64), Nat.digitChar (n / 8 % 8), Nat.digitChar (n % 8)]

/-- One byte inside a C string. The question mark is escaped so that no trigraph arises. -/
def quoteByte (b : UInt8) : Bytes :=
  if b == 0x22 then utf8 "\\\""
  else if b == 0x5C then utf8 "\\\\"
  else if b == 0x0A then utf8 "\\n"
  else if b == 0x09 then utf8 "\\t"
  else if b == 0x0D then utf8 "\\r"
  else if b == 0x3F then utf8 "\\?"
  else if b < 0x20 || b == 0x7F then utf8 (octalEscape b)
  else [b]

/-- Bytes as a C string literal; bytes above ASCII stand as they are. -/
def quote (bs : Bytes) : Bytes := utf8 "\"" ++ bs.flatMap quoteByte ++ utf8 "\""

/-- A constant as C spells it; a negative integer stands in parentheses. -/
@[grind =] def Const.text : Const → Bytes
  | int v => if v < 0 then utf8 ("(" ++ toString v.toInt ++ ")") else utf8 (toString v.toInt)
  | uint v => utf8 (toString v.toNat ++ "ULL")
  | float v => utf8 (floatText v)
  | str s => quote s

/-! ## Expressions -/

/-- `x` in parentheses. -/
def parens (x : Bytes) : Bytes := utf8 "(" ++ x ++ utf8 ")"

/-- The operand of a prefix operator that has to stand in parentheses, lest two signs merge. -/
def CExpr.isPrefixed : CExpr → Bool
  | unary _ _ | cast _ _ => true
  | _ => false

/-- Where an expression stands. -/
inductive Place where
  /-- Nothing outside can bind to its parts: a statement, a condition, an argument. -/
  | whole
  /-- The operand of an operator. -/
  | operand
  /-- What a postfix operator applies to. -/
  | target
  deriving DecidableEq, Repr

/-- Parentheses if `b`. -/
def parensIf (b : Bool) (x : Bytes) : Bytes := if b then parens x else x

mutual

/-- An expression as it is printed in a place. -/
@[simp] def CExpr.text (place : Place) : CExpr → Bytes
  | .ident n => utf8 n
  | .const (.str s) => quote s
  | .const c => parensIf (place == .target) c.text
  | .type t => parensIf (place == .target) (utf8 t.text)
  | .sizeOf t => utf8 ("sizeof(" ++ t.text ++ ")")
  | .member x op f => x.text .target ++ utf8 (op.text ++ f)
  | .call f args => f.text .target ++ utf8 "(" ++ argTexts args ++ utf8 ")"
  | .cast t x => parensIf (place == .target) (utf8 ("(" ++ t.text ++ ")") ++ x.text .operand)
  | .unary op x =>
    parensIf (place == .target) <|
      if op.isPost then x.text .target ++ utf8 op.text
      else utf8 op.text ++ parensIf x.isPrefixed (x.text .operand)
  | .binary .index a b => a.text .target ++ utf8 "[" ++ b.text .whole ++ utf8 "]"
  | .binary op a b =>
    parensIf (place != .whole) (a.text .operand ++ utf8 (" " ++ op.text ++ " ") ++ b.text .operand)
  | .assign op a b =>
    parensIf (place != .whole) (a.text .operand ++ utf8 (" " ++ op.text ++ " ") ++ b.text .whole)
  | .missing => []
termination_by structural x => x

/-- Arguments with commas between them. -/
def argTexts : List CExpr → Bytes
  | [] => []
  | x :: rest => x.text .whole ++ moreArgTexts rest
termination_by structural xs => xs

/-- Further arguments, each after a comma. -/
def moreArgTexts : List CExpr → Bytes
  | [] => []
  | x :: rest => utf8 ", " ++ x.text .whole ++ moreArgTexts rest
termination_by structural xs => xs

end

/-! ## Statements -/

/-- The indentation of a depth. -/
def indentation (depth : Nat) : Bytes := List.replicate (4 * depth) 0x20

/-- The statement is a block. -/
def CStmt.isBlock : CStmt → Bool
  | block _ => true
  | _ => false

/-- The statement is a condition. -/
def CStmt.isCond : CStmt → Bool
  | cond _ _ _ => true
  | _ => false

/-- What stands before a statement other than a block: as the body of a condition or loop it gets
    a line of its own, one level deeper. -/
def lead (asBody : Bool) (depth : Nat) : Bytes :=
  if asBody then utf8 "\n" ++ indentation (depth + 1) else []

/-- The depth of a statement other than a block. -/
def ownDepth (asBody : Bool) (depth : Nat) : Nat := if asBody then depth + 1 else depth

mutual

/-- A statement from the current column on, without the end of its last line. As the body of a
    condition or loop, a block follows on the same line. -/
def CStmt.text (asBody : Bool) (depth : Nat) : CStmt → Bytes
  | .empty => lead asBody depth ++ utf8 ";"
  | .continue => lead asBody depth ++ utf8 "continue;"
  | .break => lead asBody depth ++ utf8 "break;"
  | .ret none => lead asBody depth ++ utf8 "return;"
  | .ret (some x) => lead asBody depth ++ utf8 "return " ++ x.text .whole ++ utf8 ";"
  | .block ss =>
    (if asBody then utf8 " " else []) ++ utf8 "\x7b\n" ++ stmtLines (depth + 1) ss ++
      indentation depth ++ utf8 "\x7d"
  | .cond t yes no =>
    lead asBody depth ++ utf8 "if (" ++ t.text .whole ++ utf8 ")" ++
      yes.text true (ownDepth asBody depth) ++ elseText yes.isBlock (ownDepth asBody depth) no
  | .while t b =>
    lead asBody depth ++ utf8 "while (" ++ t.text .whole ++ utf8 ")" ++
      b.text true (ownDepth asBody depth)
  | .var n t => lead asBody depth ++ utf8 (t.text ++ " " ++ n ++ ";")
  | .expr x => lead asBody depth ++ x.text .whole ++ utf8 ";"
  | .missing => []
termination_by structural s => s

/-- The `else` of a condition. It follows a block on the same line, and a condition follows it. -/
def elseText (afterBlock : Bool) (depth : Nat) : Option CStmt → Bytes
  | none => []
  | some s =>
    (if afterBlock then utf8 " else" else utf8 "\n" ++ indentation depth ++ utf8 "else") ++
      (if s.isCond then utf8 " " else []) ++ s.text (!s.isCond) depth
termination_by structural s => s

/-- Statements on lines of their own. -/
def stmtLines (depth : Nat) : List CStmt → Bytes
  | [] => []
  | s :: ss => indentation depth ++ s.text false depth ++ utf8 "\n" ++ stmtLines depth ss
termination_by structural ss => ss

end

/-! ## Declarations -/

/-- The type of a struct member. A pointer to a struct carries the tag, so that the struct may be
    declared later. -/
def memberType (t : CType) : String :=
  match t with
  | .ptr (.struct _) => "struct " ++ t.text
  | _ => t.text

/-- Parameters with commas between them. -/
def paramsText (ps : List CParam) : String :=
  if ps.isEmpty then "void"
  else ", ".intercalate (ps.map fun p => p.type.text ++ " " ++ p.name)

/-- A declaration with its line ends. -/
def Decl.text : Decl → Bytes
  | .struct n ms =>
    utf8 ("typedef struct " ++ n ++ " \x7b\n" ++
      String.join (ms.map fun m => "    " ++ memberType m.type ++ " " ++ m.name ++ ";\n") ++
      "\x7d " ++ n ++ ";\n")
  | .var n t init =>
    utf8 (t.text ++ " " ++ n) ++
      (match init with
        | some x => utf8 " = " ++ x.text .whole
        | none => []) ++ utf8 ";\n"
  | .fn n ps r body =>
    utf8 (r.text ++ " " ++ n ++ "(" ++ paramsText ps ++ ")") ++
      (match body with
        | some ss => utf8 " " ++ (CStmt.block ss).text false 0 ++ utf8 "\n"
        | none => utf8 ";\n")

/-- An include line. -/
def Include.text (i : Include) : String :=
  if i.system then "#include <" ++ i.name ++ ">\n" else "#include \"" ++ i.name ++ "\"\n"

/-- The text of a unit: its includes, then its declarations with empty lines between them. -/
def CUnit.text (u : CUnit) : Bytes :=
  utf8 (if u.isHeader then "#pragma once\n\n" else "") ++
    utf8 (String.join (u.includes.map Include.text)) ++
    (if u.includes.isEmpty || u.decls.isEmpty then [] else utf8 "\n") ++
    (utf8 "\n").intercalate (u.decls.map Decl.text)

/-! ## Missing nodes -/

/-- A node that a unit lacks. -/
inductive Gap where
  | expr | stmt
  deriving DecidableEq, Repr

/-- What is said about a missing node. -/
def Gap.message : Gap → String
  | expr => "cwriter: unexpected expression <nil>"
  | stmt => "cwriter: unexpected statement <nil>"

mutual

/-- The missing nodes of an expression, in the order of the text. -/
def CExpr.gaps : CExpr → List Gap
  | .ident _ => []
  | .const _ => []
  | .type _ => []
  | .sizeOf _ => []
  | .member x _ _ => x.gaps
  | .call f args => f.gaps ++ argGaps args
  | .cast _ x => x.gaps
  | .unary _ x => x.gaps
  | .binary _ a b => a.gaps ++ b.gaps
  | .assign _ a b => a.gaps ++ b.gaps
  | .missing => [.expr]

/-- The missing nodes of arguments. -/
def argGaps : List CExpr → List Gap
  | [] => []
  | x :: rest => x.gaps ++ argGaps rest

end

mutual

/-- The missing nodes of a statement, in the order of the text. -/
def CStmt.gaps : CStmt → List Gap
  | .empty => []
  | .continue => []
  | .break => []
  | .ret v => (v.map CExpr.gaps).getD []
  | .block ss => stmtGaps ss
  | .cond t yes no => t.gaps ++ yes.gaps ++ elseGaps no
  | .while t b => t.gaps ++ b.gaps
  | .var _ _ => []
  | .expr x => x.gaps
  | .missing => [.stmt]

/-- The missing nodes of an optional branch. -/
def elseGaps : Option CStmt → List Gap
  | none => []
  | some s => s.gaps

/-- The missing nodes of statements. -/
def stmtGaps : List CStmt → List Gap
  | [] => []
  | s :: ss => s.gaps ++ stmtGaps ss

end

/-- The missing nodes of a declaration. -/
def Decl.gaps : Decl → List Gap
  | .struct _ _ => []
  | .var _ _ init => (init.map CExpr.gaps).getD []
  | .fn _ _ _ body => (body.map stmtGaps).getD []

/-- The first node that a unit lacks. -/
def CUnit.firstGap (u : CUnit) : Option Gap := (u.decls.flatMap Decl.gaps).head?

end PineLang.C
