import PineLang.Number.Shortest
import PineLang.Syntax.Holes
import PineLang.Text.Utf8

/-!
# Formatted source

A file is printed with four spaces per level, every body on lines of its own, and an empty line
between items. Two spellings that the tree does not record are taken from the source it was read
from: `else if` or an `if` inside an `else` block, and struct fields in braces or indented.
-/
namespace PineLang

/-! ## Expressions -/

/-- One character inside a string literal. -/
def quoteStringChar (c : Char) : String :=
  match c with
  | '\n' => "\\n"
  | '\t' => "\\t"
  | '\r' => "\\r"
  | '\\' => "\\\\"
  | '"' => "\\\""
  | c => if c.toNat = 0 then "\\0" else String.singleton c

/-- A string as a literal of the language. -/
def quoteString (s : String) : String :=
  "\"" ++ String.join (s.toList.map quoteStringChar) ++ "\""

/-- A literal as it is written; a number without a spelling is written afresh. -/
def Literal.text : Literal → String
  | bool b => if b then "true" else "false"
  | nil => "nil"
  | int v t => if t.isEmpty then toString v.toNat else t
  | float v t => if t.isEmpty then v.general else t
  | string t => quoteString t
  | other _ t => quoteString t

mutual

/-- An expression as it is written. -/
def Expr.text : Expr → String
  | .ident _ n => n
  | .lit _ v => v.text
  | .assign _ a b => a.text ++ " = " ++ b.text
  | .call _ f args => f.text ++ "(" ++ exprTexts args ++ ")"
  | .member _ t f _ => t.text ++ "." ++ f
  | .unary _ op x => op.text ++ x.text
  | .binary _ op a b => a.text ++ " " ++ op.text ++ " " ++ b.text
  | .group _ x => "(" ++ x.text ++ ")"
  | .structLit _ n _ fs =>
    if fs.isEmpty then n ++ " \x7b\x7d" else n ++ " \x7b " ++ fieldTexts fs ++ " \x7d"
  | .absent _ => ""
  | .hollow _ _ => ""
termination_by structural x => x

/-- Expressions with commas between them. -/
def exprTexts : List Expr → String
  | [] => ""
  | x :: rest => x.text ++ moreExprTexts rest
termination_by structural xs => xs

/-- Further expressions, each after a comma. -/
def moreExprTexts : List Expr → String
  | [] => ""
  | x :: rest => ", " ++ x.text ++ moreExprTexts rest
termination_by structural xs => xs

/-- One field of a literal. -/
def FieldInit.text : FieldInit → String
  | .mk n _ v => n ++ ": " ++ v.text
termination_by structural f => f

/-- Fields of a literal with commas between them. -/
def fieldTexts : List FieldInit → String
  | [] => ""
  | f :: rest => f.text ++ moreFieldTexts rest
termination_by structural fs => fs

/-- Further fields, each after a comma. -/
def moreFieldTexts : List FieldInit → String
  | [] => ""
  | f :: rest => ", " ++ f.text ++ moreFieldTexts rest
termination_by structural fs => fs

end

namespace Printer

/-- The indentation of a depth. -/
def pad (depth : Nat) : String := "".pushn ' ' (4 * depth)

/-- White space that may stand between `else` and `if`. -/
def isSpace (b : UInt8) : Bool := b == 0x20 || b == 0x09 || b == 0x0D || b == 0x0A

/-- The source has the word `else`, and then only white space, before the offset. -/
def elseBefore (source : Bytes) (off : Nat) : Bool :=
  (utf8 "else").reverse.isPrefixOf ((source.take off).reverse.dropWhile isSpace)

/-- The source has an opening brace, after spaces and tabs only, at the offset. -/
def braceAt (source : Bytes) (off : Nat) : Bool :=
  ((source.drop off).dropWhile fun b => b == 0x20 || b == 0x09).head? == some 0x7B

/-- An `if` that the source joins to an `else`. -/
def isElseIf (source : Bytes) : Stmt → Bool
  | .cond s _ _ _ => elseBefore source s.start
  | _ => false

/-! ## Statements -/

mutual

/-- A statement with its indentation and line ends. -/
def stmt (source : Bytes) (depth : Nat) : Stmt → String
  | .block _ ss => stmts source depth ss
  | .expr _ x => pad depth ++ x.text ++ "\n"
  | .cond _ t yes no =>
    pad depth ++ "if " ++ t.text ++ ":" ++ body source depth yes ++ otherwise source depth no
  | .ret _ none => pad depth ++ "return\n"
  | .ret _ (some x) => pad depth ++ "return " ++ x.text ++ "\n"
  | .brk _ => pad depth ++ "break\n"
  | .bind _ n _ ty v => pad depth ++ "let " ++ n ++ ": " ++ ty.ty.text ++ " = " ++ v.text ++ "\n"
  | .loop _ b => pad depth ++ "loop:" ++ body source depth b
  | .empty _ => pad depth ++ "_\n"
  | .absent _ => ""
  | .hollow _ _ => "\n"
termination_by structural s => s

/-- An `if` from the current column on. -/
def branch (source : Bytes) (depth : Nat) : Stmt → String
  | .cond _ t yes no => "if " ++ t.text ++ ":" ++ body source depth yes ++ otherwise source depth no
  | _ => ""
termination_by structural s => s

/-- The `else` branch, if there is one. -/
def otherwise (source : Bytes) (depth : Nat) : Option Body → String
  | none => ""
  | some (.block _ [s]) =>
    if isElseIf source s then pad depth ++ "else " ++ branch source depth s
    else pad depth ++ "else:\n" ++ stmt source (depth + 1) s
  | some (.block _ ss) => pad depth ++ "else:\n" ++ stmts source (depth + 1) ss
  | some (.stray _ s) => pad depth ++ "else:\n" ++ stmt source (depth + 1) s
termination_by structural b => b

/-- A body after its colon. -/
def body (source : Bytes) (depth : Nat) : Body → String
  | .block _ ss => "\n" ++ stmts source (depth + 1) ss
  | .stray _ s => "\n" ++ stmt source (depth + 1) s
termination_by structural b => b

/-- Statements one after the other. -/
def stmts (source : Bytes) (depth : Nat) : List Stmt → String
  | [] => ""
  | s :: ss => stmt source depth s ++ stmts source depth ss
termination_by structural ss => ss

end

/-! ## Items -/

/-- `name: type`. -/
def param (p : Param) : String := p.name ++ ": " ++ p.type.ty.text

/-- Parameters or fields with commas between them. -/
def params (ps : List Param) : String := ", ".intercalate (ps.map param)

/-- A declaration. -/
@[grind =] def item (source : Bytes) : Item → String
  | .fn d =>
    "fun " ++ d.name ++ "(" ++ params d.params ++ ") -> " ++ d.ret.ty.text ++ ":" ++
      body source 0 d.body
  | .struct d =>
    if d.fields.isEmpty then "type " ++ d.name ++ " \x7b\x7d\n"
    else if braceAt source d.nameSpan.stop then
      "type " ++ d.name ++ " \x7b " ++ params d.fields ++ " \x7d\n"
    else
      "type " ++ d.name ++ ":\n" ++
        String.join (d.fields.map fun f => pad 1 ++ param f ++ "\n")
  | .absent _ => ""
  | .hollow _ _ => ""

/-- A hole at which printing cannot go on. -/
def stopsAt : Hole → Bool
  | .expr _ => true
  | .hollowExpr k => k ≤ 8
  | .stmt _ => true
  | .hollowStmt k => stmtKindHasParts k
  | .item _ => false
  | .hollowItem k => k ≤ 1

end Printer

/-- Why there is no file to print. -/
inductive FormatFault where
  | noSource
  | noBuilder
  /-- The number zero, which names no file. -/
  | noFile
  /-- A number that no file has. -/
  | fileMissing
  deriving Repr, DecidableEq

namespace FormatFault

/-- The fault of a number without a file. -/
def ofNumber (id : Nat) : FormatFault := if id = 0 then .noFile else .fileMissing

/-- The fault as it is told. -/
def message : FormatFault → String
  | noSource => "format: nil source file"
  | noBuilder => "format: nil builder"
  | noFile => "format: invalid file id"
  | fileMissing => "format: missing ast file"

end FormatFault

/-- The formatted text of a file that was read from `source`. -/
def File.format (f : File) (source : Bytes) : String :=
  "\n".intercalate (f.items.map (Printer.item source))

/-- No hole keeps the file from being printed. -/
def File.isPrintable (f : File) : Bool := !f.holes.any Printer.stopsAt

end PineLang
