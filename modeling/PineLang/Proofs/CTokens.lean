import PineLang.Proofs.Utf8

/-!
The tokens of C text, each as long as it can be. White space and comments stand between them. Lines are
not spliced, and no line is a directive.
-/
namespace PineLang.C

/-! ## Tokens -/

/-- Punctuators. -/
inductive Punct where
  | lparen | rparen | lbracket | rbracket | lbrace | rbrace
  | dot | arrow | ellipsis | comma | semicolon | colon | question | hash | paste
  | inc | dec | amp | star | plus | minus | tilde | bang | slash | percent | shl | shr
  | lt | gt | le | ge | eq | ne | caret | bar | andAnd | orOr
  | set | setMul | setDiv | setMod | setAdd | setSub | setShl | setShr | setAnd | setXor | setOr
  deriving DecidableEq, Repr

/-- The punctuators as they are spelled, the longer before the shorter. Six have a second spelling. -/
def Punct.spellings : List (List Char × Punct) :=
  [(['%', ':', '%', ':'], paste), (['.', '.', '.'], ellipsis), (['<', '<', '='], setShl),
   (['>', '>', '='], setShr), (['-', '>'], arrow), (['#', '#'], paste), (['+', '+'], inc), (['-', '-'], dec),
   (['<', '<'], shl), (['>', '>'], shr), (['<', '='], le), (['>', '='], ge), (['=', '='], eq),
   (['!', '='], ne), (['&', '&'], andAnd), (['|', '|'], orOr), (['*', '='], setMul), (['/', '='], setDiv),
   (['%', '='], setMod), (['+', '='], setAdd), (['-', '='], setSub), (['&', '='], setAnd),
   (['^', '='], setXor), (['|', '='], setOr), (['<', ':'], lbracket), ([':', '>'], rbracket),
   (['<', '%'], lbrace), (['%', '>'], rbrace), (['%', ':'], hash), (['('], lparen), ([')'], rparen),
   (['['], lbracket), ([']'], rbracket), (['\x7b'], lbrace), (['\x7d'], rbrace), (['.'], dot), ([','], comma),
   ([';'], semicolon), ([':'], colon), (['?'], question), (['#'], hash), (['&'], amp), (['*'], star),
   (['+'], plus), (['-'], minus), (['~'], tilde), (['!'], bang), (['/'], slash), (['%'], percent), (['<'], lt),
   (['>'], gt), (['^'], caret), (['|'], bar), (['='], set)]

/-- ASCII characters as bytes. -/
def asciiBytes (cs : List Char) : Bytes := cs.map fun c => UInt8.ofNat c.toNat

/-- The usual spelling of a punctuator. -/
def Punct.bytes (p : Punct) : Bytes :=
  ((spellings.reverse.find? fun (_, q) => q == p).map fun (s, _) => asciiBytes s).getD []

/-- Tokens. -/
inductive CToken where
  /-- An identifier or a keyword. -/
  | word (name : String)
  | number (text : Bytes)
  /-- A string, as it is spelled between its quotes. -/
  | str (inner : Bytes)
  | punct (p : Punct)
  deriving DecidableEq, Repr

/-- White space. -/
def isSpace (b : UInt8) : Bool := b == 0x20 || (0x09 ≤ b && b ≤ 0x0D)

/-- Decimal digits. -/
def isDigit (b : UInt8) : Bool := 0x30 ≤ b && b ≤ 0x39

/-- A byte that a word can start with. Bytes beyond ASCII are parts of letters. -/
def isWordStart (b : UInt8) : Bool := (0x41 ≤ b && b ≤ 0x5A) || (0x61 ≤ b && b ≤ 0x7A) || b == 0x5F || 0x80 ≤ b

/-- A byte of a word. -/
def isWordPart (b : UInt8) : Bool := isWordStart b || isDigit b

/-- The letters after which a sign belongs to a number. -/
def isExponent (b : UInt8) : Bool := b == 0x45 || b == 0x65 || b == 0x50 || b == 0x70

/-- Signs. -/
def isSign (b : UInt8) : Bool := b == 0x2B || b == 0x2D

/-- A byte that continues a number behind another one. -/
def continuesNumber (previous b : UInt8) : Bool := isWordPart b || b == 0x2E || (isExponent previous && isSign b)

/-- The rest of a number. -/
def numberTail (previous : UInt8) : Bytes → Bytes
  | [] => []
  | b :: rest => if continuesNumber previous b then b :: numberTail b rest else []

/-- What stands before the quote that ends a string, and what after it. -/
def stringTail : Bytes → Option (Bytes × Bytes)
  | [] => none
  | 0x22 :: rest => some ([], rest)
  | 0x0A :: _ => none
  | 0x5C :: b :: rest => if b = 0x0A then none else (stringTail rest).map fun (inner, rest) => (0x5C :: b :: inner, rest)
  | b :: rest => (stringTail rest).map fun (inner, rest) => (b :: inner, rest)

/-- What stands behind a comment. -/
def commentTail : Bytes → Option Bytes
  | [] => none
  | 0x2A :: 0x2F :: rest => some rest
  | _ :: rest => commentTail rest

/-- Words that a quote turns into a part of a string. -/
def stringPrefixes : List String := ["L", "u8", "u", "U"]

/-- The punctuator at the head of some text, the longest that fits, and what stands behind it. -/
def headPunct (bs : Bytes) : Option (Punct × Bytes) :=
  (Punct.spellings.find? fun (s, _) => (asciiBytes s).isPrefixOf bs).map fun (s, p) => (p, bs.drop s.length)

/-- What stands at the head of some text, a token or white space, and what behind it. -/
def headToken : Bytes → Option (Option CToken × Bytes)
  | [] => none
  | b :: bs =>
    if isSpace b then some (none, bs)
    else if b == 0x2F && bs.head? == some 0x2F then some (none, bs.dropWhile (· != 0x0A))
    else if b == 0x2F && bs.head? == some 0x2A then (commentTail (bs.drop 1)).map (none, ·)
    else if isWordStart b then do
      let name ← Text.string? (b :: bs.takeWhile isWordPart)
      let rest := bs.dropWhile isWordPart
      if rest.head? == some 0x22 && stringPrefixes.contains name then none
      else some (some (.word name), rest)
    else if isDigit b || (b == 0x2E && bs.head?.any isDigit) then
      some (some (.number (b :: numberTail b bs)), bs.drop (numberTail b bs).length)
    else if b == 0x22 then (stringTail bs).map fun (inner, rest) => (some (.str inner), rest)
    else (headPunct (b :: bs)).map fun (p, rest) => (some (.punct p), rest)

/-- The tokens of a text, as many as `fuel` allows. -/
def tokensWith : Nat → Bytes → Option (List CToken)
  | _, [] => some []
  | 0, _ :: _ => none
  | fuel + 1, b :: bs => do
    let (t, rest) ← headToken (b :: bs)
    let ts ← tokensWith fuel rest
    return t.toList ++ ts

/-- The tokens of a text. -/
def tokens (bs : Bytes) : Option (List CToken) := tokensWith bs.length bs

end PineLang.C
