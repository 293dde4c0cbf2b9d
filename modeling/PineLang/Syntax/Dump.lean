import PineLang.Number.Shortest
import PineLang.Syntax.Holes
import PineLang.Text.Quoted

/-!
# Dumped trees

A tree is dumped as a nested value: records with their fields, lists, and plain values. A record
stands on one line if all its fields are plain; otherwise every field has a line, and the values of
neighbouring lines are aligned.
-/
namespace PineLang

namespace Dump

/-- A value to be dumped. -/
inductive Value where
  | nothing
  | str (s : String)
  | bool (b : Bool)
  | nat (n : Nat)
  | float (x : Double)
  /-- A record: the name of its type, whether all its fields are plain, and its fields. -/
  | record (type : String) (inline : Bool) (fields : List (String × Value))
  /-- A list of values of any type. -/
  | values (elems : List Value)
  /-- A list of records of one type. -/
  | records (elems : List Value)
  deriving Inhabited

mutual

/-- The value says more than its type does. A list always does. -/
def Value.isNonzero : Value → Bool
  | .nothing => false
  | .str s => !s.isEmpty
  | .bool b => b
  | .nat n => n != 0
  | .float x => x.significand != 0 || !x.isFinite
  | .record _ _ fields => anyNonzero fields
  | .values _ => true
  | .records _ => true

/-- Some field says more than its type does. -/
def anyNonzero : List (String × Value) → Bool
  | [] => false
  | f :: rest => fieldNonzero f || anyNonzero rest

/-- The field says more than its type does. -/
def fieldNonzero : String × Value → Bool
  | (_, v) => v.isNonzero

end

/-- There is no value. -/
def Value.isNothing : Value → Bool
  | nothing => true
  | _ => false

/-- The most lists that may be nested. -/
def maxDepth : Nat := 10

/-- Lines from the current column on; the first continues the current line. -/
abbrev Lines := List String

/-- Puts a line in front of the first of some lines. -/
def continueLine (start : String) : Lines → Lines
  | [] => [start]
  | l :: rest => (start ++ l) :: rest

/-- Adds to the end of the last line. -/
def endWith (finish : String) (ls : Lines) : Lines :=
  ls.dropLast ++ [ls.getLastD "" ++ finish]

/-- Indents lines by one level. -/
def indent (ls : Lines) : Lines := ls.map ("    " ++ ·)

/-- The width of the labels of the fields that stand on neighbouring lines with the first one: up to
    and including the first field that takes several lines. -/
def labelWidth : List (String × Lines) → Nat
  | [] => 0
  | (label, ls) :: rest =>
    if ls.length > 1 then label.length else max label.length (labelWidth rest)

/-- The fields of a record, each on a line of its own. `width` is that of the labels of the current
    group of neighbouring lines, if one has started. -/
def fieldLines (width : Option Nat) : List (String × Lines) → Lines
  | [] => []
  | (label, ls) :: rest =>
    let w := width.getD (labelWidth ((label, ls) :: rest))
    let start := label ++ "".pushn ' ' (max (w + 1) 4 - label.length)
    let next := if ls.length > 1 then none else some w
    endWith "," (continueLine start ls) ++ fieldLines next rest

/-- A record over several lines. -/
def block (opening : String) (inner : Lines) : Lines :=
  (opening ++ "\x7b") :: indent inner ++ ["\x7d"]

mutual

/-- The lines of a value. A value that stands for any type names its own. -/
def Value.lines (depth : Nat) (showType : Bool) : Value → Lines
  | .nothing => ["nil"]
  | .str s => [Text.quoted s]
  | .bool b =>
    let t := if b then "true" else "false"
    [if showType then "bool(" ++ t ++ ")" else t]
  | .nat n =>
    let t := "0x" ++ Text.hexPadded 1 n
    [if showType then "uint64(" ++ t ++ ")" else t]
  | .float x => [if showType then "float64(" ++ x.general ++ ")" else x.general]
  | .record type inline fields =>
    let opening := if showType then type else ""
    if !anyNonzero fields then [opening ++ "\x7b\x7d"]
    else if inline then [opening ++ "\x7b" ++ ", ".intercalate (inlineFields depth fields) ++ "\x7d"]
    else block opening (fieldLines none (fieldValues depth fields))
  | .values elems => block "" (elemLines depth true elems)
  | .records elems => block "" (elemLines depth false elems)

/-- The fields of a record on one line. -/
def inlineFields (depth : Nat) : List (String × Value) → List String
  | [] => []
  | f :: rest => inlineField depth f :: inlineFields depth rest

/-- A field of a record on one line. -/
def inlineField (depth : Nat) : String × Value → String
  | (name, v) => name ++ ":" ++ String.join (v.lines depth false)

/-- The labels and lines of fields. -/
def fieldValues (depth : Nat) : List (String × Value) → List (String × Lines)
  | [] => []
  | f :: rest => fieldValue depth f :: fieldValues depth rest

/-- The label and lines of a field. -/
def fieldValue (depth : Nat) : String × Value → String × Lines
  | (name, v) => (name ++ ":", v.lines depth true)

/-- The lines of the elements of a list. Elements of any type count as one level deeper. -/
def elemLines (depth : Nat) (anyType : Bool) : List Value → Lines
  | [] => []
  | v :: rest =>
    let own := if anyType && depth + 1 > maxDepth && !v.isNothing then ["!%v(DEPTH EXCEEDED)"]
      else v.lines (if anyType then depth + 1 else depth) anyType
    endWith "," own ++ elemLines depth anyType rest

end

/-! ## Trees as values -/

/-- A parameter or field. -/
def ofParam (p : Param) : Value :=
  .record "driver.DumpParam" true [("Name", .str p.name), ("Type", .str p.type.ty.text)]

/-- A literal. -/
def ofLiteral (l : Literal) : Value :=
  let make (kind : String) (v : Value) :=
    Value.record "driver.DumpLiteral" false [("Kind", .str kind), ("Value", v)]
  match l with
  | .bool b => make "bool" (.bool b)
  | .nil => make "nil" .nothing
  | .int v _ => make "int" (.nat v.toNat)
  | .float v _ => make "float" (.float v)
  | .string t => make "string" (.str t)
  | .other _ t => make "string" (.str t)

mutual

/-- An expression. A group is left out. -/
def ofExpr : Expr → Value
  | .ident _ n => .record "driver.DumpIdent" true [("Name", .str n)]
  | .lit _ v => ofLiteral v
  | .assign _ a b => .record "driver.DumpAssign" false [("Target", ofExpr a), ("Value", ofExpr b)]
  | .call _ f args =>
    .record "driver.DumpCall" false [("Callee", ofExpr f), ("Args", .values (ofExprs args))]
  | .member _ t f _ => .record "driver.DumpMember" false [("Target", ofExpr t), ("Field", .str f)]
  | .unary _ op x => .record "driver.DumpUnary" false [("Op", .str op.text), ("Operand", ofExpr x)]
  | .binary _ op a b =>
    .record "driver.DumpBinary" false
      [("Op", .str op.text), ("Left", ofExpr a), ("Right", ofExpr b)]
  | .group _ x => ofExpr x
  | .structLit _ n _ fs =>
    .record "driver.DumpStructLit" false [("Name", .str n), ("Fields", .records (ofFields fs))]
  | .absent _ => .nothing
  | .hollow _ _ => .nothing

/-- Expressions. -/
def ofExprs : List Expr → List Value
  | [] => []
  | x :: xs => ofExpr x :: ofExprs xs

/-- One field of a literal. -/
def ofField : FieldInit → Value
  | .mk n _ v => .record "driver.DumpFieldInit" false [("Name", .str n), ("Value", ofExpr v)]

/-- The fields of a literal. -/
def ofFields : List FieldInit → List Value
  | [] => []
  | f :: fs => ofField f :: ofFields fs

end

/-- An optional expression. -/
def ofOption : Option Expr → Value
  | none => .nothing
  | some x => ofExpr x

mutual

/-- A statement. -/
def ofStmt : Stmt → Value
  | .block _ ss => .record "driver.DumpBlock" false [("Stmts", .values (ofStmts ss))]
  | .expr _ x => .record "driver.DumpExpr" false [("Expr", ofExpr x)]
  | .cond _ t yes no =>
    .record "driver.DumpIf" false [("Cond", ofExpr t), ("Then", ofBody yes), ("Else", ofElse no)]
  | .ret _ v => .record "driver.DumpReturn" false [("Value", ofOption v)]
  | .brk _ => .record "driver.DumpBreak" true []
  | .bind _ n _ t v =>
    .record "driver.DumpLet" false
      [("Name", .str n), ("Type", .str t.ty.text), ("Value", ofExpr v)]
  | .loop _ b => .record "driver.DumpLoop" false [("Body", ofBody b)]
  | .empty _ => .nothing
  | .absent _ => .nothing
  | .hollow _ _ => .nothing

/-- A body. -/
def ofBody : Body → Value
  | .block _ ss => .record "driver.DumpBlock" false [("Stmts", .values (ofStmts ss))]
  | .stray _ s => ofStmt s

/-- An optional branch. -/
def ofElse : Option Body → Value
  | none => .nothing
  | some b => ofBody b

/-- Statements. -/
def ofStmts : List Stmt → List Value
  | [] => []
  | s :: ss => ofStmt s :: ofStmts ss

end

/-- An item. -/
def ofItem : Item → Value
  | .fn d =>
    .record "driver.DumpFn" false
      [("Name", .str d.name), ("Params", .records (d.params.map ofParam)),
       ("Return", .str d.ret.ty.text), ("Body", ofBody d.body)]
  | .struct d =>
    .record "driver.DumpStruct" false
      [("Name", .str d.name), ("Fields", .records (d.fields.map ofParam))]
  | .absent _ => .nothing
  | .hollow _ _ => .nothing

/-- A hole at which dumping cannot go on. -/
def stopsAt : Hole → Bool
  | .expr id => id != 0
  | .hollowExpr k => k ≤ 8
  | .stmt id => id != 0
  | .hollowStmt k => stmtKindHasParts k
  | .item _ => false
  | .hollowItem k => k ≤ 1

end Dump

/-- The tree of a file in readable form. -/
def File.dump (f : File) : String :=
  let v := Dump.Value.record "driver.DumpFile" false [("Items", .values (f.items.map Dump.ofItem))]
  "\n".intercalate (v.lines 0 true) ++ "\n"

/-- No hole keeps the file from being dumped. -/
def File.isDumpable (f : File) : Bool := !f.holes.any Dump.stopsAt

end PineLang
