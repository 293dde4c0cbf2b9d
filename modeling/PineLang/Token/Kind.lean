/-!
# Kinds of tokens

The closed set of token kinds, in the order of their numbers, with their spellings.
-/
namespace PineLang

/-- The category of a token. -/
inductive Kind where
  | invalid | eof
  | newLine | indent | dedent
  | ident | intLit | floatLit | stringLit
  | kwAnd | kwOr | kwType | kwElse | kwFalse | kwTrue | kwFun | kwIf | kwReturn | kwSelf | kwLet
  | kwLoop | kwBreak | kwNil
  | kwBool | kwI8 | kwI32 | kwI64 | kwU8 | kwU32 | kwU64 | kwF32 | kwF64 | kwStr
  | lparen | rparen | lbrace | rbrace | lbracket | rbracket | comma | dot | minus | plus | slash
  | percent | star | colon | arrow | pipe | bang | bangEq | assign | eqEq | gt | gtEq | lt | ltEq
  | underscore
  deriving DecidableEq, Repr, Inhabited

namespace Kind

/-- The kinds in the order of their numbers. -/
def all : List Kind :=
  [invalid, eof, newLine, indent, dedent, ident, intLit, floatLit, stringLit,
   kwAnd, kwOr, kwType, kwElse, kwFalse, kwTrue, kwFun, kwIf, kwReturn, kwSelf, kwLet,
   kwLoop, kwBreak, kwNil,
   kwBool, kwI8, kwI32, kwI64, kwU8, kwU32, kwU64, kwF32, kwF64, kwStr,
   lparen, rparen, lbrace, rbrace, lbracket, rbracket, comma, dot, minus, plus, slash,
   percent, star, colon, arrow, pipe, bang, bangEq, assign, eqEq, gt, gtEq, lt, ltEq,
   underscore]

/-- The kind with a number, if there is one. -/
def ofNat? (n : Nat) : Option Kind := all[n]?

/-- The spelling of a fixed token, and a descriptive name for the others. -/
def name : Kind → String
  | invalid => "invalid"
  | eof => "end of file"
  | newLine => "new line"
  | indent => "indent"
  | dedent => "dedent"
  | ident => "identifier"
  | intLit => "integer"
  | floatLit => "float"
  | stringLit => "string"
  | kwAnd => "and"
  | kwOr => "or"
  | kwType => "type"
  | kwElse => "else"
  | kwFalse => "false"
  | kwTrue => "true"
  | kwFun => "fun"
  | kwIf => "if"
  | kwReturn => "return"
  | kwSelf => "self"
  | kwLet => "let"
  | kwLoop => "loop"
  | kwBreak => "break"
  | kwNil => "nil"
  | kwBool => "bool"
  | kwI8 => "i8"
  | kwI32 => "i32"
  | kwI64 => "i64"
  | kwU8 => "u8"
  | kwU32 => "u32"
  | kwU64 => "u64"
  | kwF32 => "f32"
  | kwF64 => "f64"
  | kwStr => "str"
  | lparen => "("
  | rparen => ")"
  | lbrace => "\x7b"
  | rbrace => "\x7d"
  | lbracket => "["
  | rbracket => "]"
  | comma => ","
  | dot => "."
  | minus => "-"
  | plus => "+"
  | slash => "/"
  | percent => "%"
  | star => "*"
  | colon => ":"
  | arrow => "->"
  | pipe => "|"
  | bang => "!"
  | bangEq => "!="
  | assign => "="
  | eqEq => "=="
  | gt => ">"
  | gtEq => ">="
  | lt => "<"
  | ltEq => "<="
  | underscore => "_"

/-- A keyword that names a primitive type. -/
def isTypeKeyword : Kind → Bool
  | kwBool | kwI8 | kwI32 | kwI64 | kwU8 | kwU32 | kwU64 | kwF32 | kwF64 | kwStr => true
  | _ => false

/-- A keyword of the language. -/
def isKeyword : Kind → Bool
  | kwAnd | kwOr | kwType | kwElse | kwFalse | kwTrue | kwFun | kwIf | kwReturn | kwSelf | kwLet
  | kwLoop | kwBreak | kwNil => true
  | k => k.isTypeKeyword

/-- A number, a string, a truth value or `nil`. -/
def isLiteral : Kind → Bool
  | intLit | floatLit | stringLit | kwTrue | kwFalse | kwNil => true
  | _ => false

/-- A token that carries only line structure. -/
def isLayout : Kind → Bool
  | newLine | indent | dedent => true
  | _ => false

/-- The keywords, in the order of their numbers. -/
def keywords : List Kind := all.filter isKeyword

/-- The keyword with exactly this spelling. -/
def keyword? (word : String) : Option Kind := keywords.find? (·.name == word)

/-- The kind with this name. -/
def ofName? (word : String) : Option Kind := all.find? (·.name == word)

end Kind
end PineLang
