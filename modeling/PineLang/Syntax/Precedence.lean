import PineLang.Syntax.Tree
import PineLang.Token.Kind

/-!
# Operators and their precedence

Assignment binds loosest and to the right; the binary operators bind to the left; prefix operators
bind tighter than all of them.
-/
namespace PineLang

/-- How a binary operator token joins its operands. -/
inductive Joiner where
  | assign
  | op (o : BinaryOp)
  deriving DecidableEq, Repr

/-- The operator that a token stands for between two operands. -/
@[grind =] def Kind.joiner? : Kind → Option Joiner
  | .assign => some .assign
  | .kwOr => some (.op .or)
  | .kwAnd => some (.op .and)
  | .eqEq => some (.op .eq)
  | .bangEq => some (.op .ne)
  | .lt => some (.op .lt)
  | .ltEq => some (.op .le)
  | .gt => some (.op .gt)
  | .gtEq => some (.op .ge)
  | .plus => some (.op .add)
  | .minus => some (.op .sub)
  | .star => some (.op .mul)
  | .slash => some (.op .div)
  | .percent => some (.op .mod)
  | _ => none

/-- The operator that a token stands for before an operand. -/
def Kind.unary? : Kind → Option UnaryOp
  | .minus => some .neg
  | .bang => some .not
  | _ => none

/-- The precedence of a binary operator; higher binds tighter. -/
def BinaryOp.precedence : BinaryOp → Nat
  | or => 2
  | and => 3
  | eq | ne => 4
  | lt | le | gt | ge => 5
  | add | sub => 6
  | mul | div | mod => 7
  | other _ => 0

/-- The precedence of an operator token; higher binds tighter. -/
def Joiner.precedence : Joiner → Nat
  | assign => 1
  | op o => o.precedence

/-- The least precedence of an operator inside the right operand. -/
def Joiner.rightPrecedence : Joiner → Nat
  | assign => 1
  | op o => o.precedence + 1

/-- The primitive type that a keyword names. -/
@[grind =] def Kind.primitive? : Kind → Option Ty
  | .kwBool => some .bool
  | .kwI8 => some .i8
  | .kwI32 => some .i32
  | .kwI64 => some .i64
  | .kwU8 => some .u8
  | .kwU32 => some .u32
  | .kwU64 => some .u64
  | .kwF32 => some .f32
  | .kwF64 => some .f64
  | .kwStr => some .str
  | _ => none

end PineLang
