import PineLang.Text.Normal
import PineLang.Text.Utf8
import PineLang.Token.Basic
import PineLang.Token.LexError
import PineLang.Unicode.Category

/-!
# From bytes to lexemes

The source is cut into lexemes: tokens, and errors for the pieces that are none. Line structure is
made explicit: a line break is a token, followed by one `indent` or `dedent` for every four columns
by which the next line that is neither blank nor a comment is deeper or shallower. An error never
stops the stream, which ends with exactly one `eof`.
-/
namespace PineLang

/-- A token, or a piece of source that is none. `earlier` is an escape error reported inside a
    string that then turned out to be unterminated. -/
inductive Lexeme where
  | token (t : Token)
  | error (e : LexError) (earlier : Option LexError := none)
  deriving DecidableEq, Repr

/-- The errors that are reported when the lexeme is read, in order. -/
def Lexeme.reports : Lexeme → List LexError
  | .token _ => []
  | .error e earlier => earlier.toList ++ [e]

/-- The token that the lexeme is read as: an error is an invalid token. -/
@[grind =] def Lexeme.toToken : Lexeme → Token
  | .token t => t
  | .error e _ => ⟨.invalid, e.span, e.fault.numberText, .none⟩

namespace Lexer

/-- A place in the source: the offset, and the bytes from there on. -/
structure Cursor where
  off : Nat
  rest : Bytes
  deriving DecidableEq, Repr

namespace Cursor

/-- The place `n` bytes further on. -/
@[grind =] def advance (c : Cursor) (n : Nat) : Cursor := ⟨c.off + n, c.rest.drop n⟩

/-- The span from here over the next `n` bytes. -/
def span (c : Cursor) (file n : Nat) : Span := ⟨file, c.off, c.off + n⟩

end Cursor

/-! ## Classes of bytes and characters -/

/-- White space within a line. -/
def isBlank (b : UInt8) : Bool := b == 0x20 || b == 0x09 || b == 0x0D

/-- An ASCII decimal digit. -/
def isDecimal (b : UInt8) : Bool := 0x30 ≤ b && b ≤ 0x39

/-- An ASCII byte that starts a name. -/
def isNameStartByte (b : UInt8) : Bool :=
  b == 0x5F || (0x41 ≤ b && b ≤ 0x5A) || (0x61 ≤ b && b ≤ 0x7A)

/-- An ASCII byte that continues a name. -/
def isNameByte (b : UInt8) : Bool := isNameStartByte b || isDecimal b

/-- A character that starts a name. -/
def isNameStart (c : Char) : Bool := c == '_' || Text.isLetter c

/-- A character that continues a name. Combining marks do, so that a decomposed name is read
    whole before it is normalised. -/
def isNameChar (c : Char) : Bool :=
  c == '_' || Text.isLetter c || Text.isDigit c || Text.isMark c

/-! ## Trivia -/

/-- A comment starts here. -/
@[grind =] def startsComment : Bytes → Bool
  | 0x2F :: 0x2F :: _ => true
  | _ => false

/-- The number of bytes before the next line break. -/
def lineExtent (bs : Bytes) : Nat := (bs.takeWhile (· != 0x0A)).length

/-- The place after white space and a comment on the same line. -/
def skipTrivia (c : Cursor) : Cursor :=
  let c := c.advance (c.rest.takeWhile isBlank).length
  if startsComment c.rest then c.advance (lineExtent c.rest) else c

/-! ## Line structure -/

/-- Columns per level of indentation. -/
def indentWidth : Nat := 4

/-- Where the next line with content starts: its leading white space and where the content is. -/
structure LineHead where
  width : Nat
  lineStart : Nat
  cursor : Cursor
  deriving DecidableEq, Repr

mutual

/-- Reads leading white space, passing over blank and comment lines. The end of the source counts
    as column zero. -/
@[grind =] def lineHead (width lineStart off : Nat) : Bytes → LineHead
  | [] => ⟨0, lineStart, ⟨off, []⟩⟩
  | 0x20 :: rest => lineHead (width + 1) lineStart (off + 1) rest
  | 0x09 :: rest => lineHead (width + indentWidth) lineStart (off + 1) rest
  | 0x0D :: rest => lineHead width lineStart (off + 1) rest
  | 0x0A :: rest => lineHead 0 (off + 1) (off + 1) rest
  | 0x2F :: 0x2F :: rest => commentLine lineStart (off + 2) rest
  | b :: rest => ⟨width, lineStart, ⟨off, b :: rest⟩⟩

/-- Passes over the rest of a comment line. -/
@[grind =] def commentLine (lineStart off : Nat) : Bytes → LineHead
  | [] => ⟨0, lineStart, ⟨off, []⟩⟩
  | 0x0A :: rest => lineHead 0 (off + 1) (off + 1) rest
  | _ :: rest => commentLine lineStart (off + 1) rest

end

/-- The tokens that lead from one depth to another. -/
def layout (file old new off : Nat) : List Lexeme :=
  if old < new then List.replicate (new - old) (.token ⟨.indent, .point file off, "", .none⟩)
  else List.replicate (old - new) (.token ⟨.dedent, .point file off, "", .none⟩)

/-- What a line break at `c` gives before the head of the next line: its lexemes, the new depth, and
    where the next content starts. An uneven indentation is reported before the line break and
    rounded down. -/
@[grind =] def lineTo (file depth : Nat) (c : Cursor) (head : LineHead) : List Lexeme × Nat × Cursor :=
  let uneven := if head.width % indentWidth == 0 then []
    else [Lexeme.error ⟨.unevenIndent head.width, ⟨file, head.lineStart, head.cursor.off⟩⟩]
  let new := head.width / indentWidth
  let nl := .token ⟨.newLine, c.span file 1, "\n", .none⟩
  (uneven ++ nl :: layout file depth new head.cursor.off, new, head.cursor)

/-- A line break at `c`. -/
@[grind =] def lineBreak (file depth : Nat) (c : Cursor) : List Lexeme × Nat × Cursor :=
  lineTo file depth c (lineHead 0 (c.off + 1) (c.off + 1) (c.rest.drop 1))

/-! ## Names -/

/-- The number of bytes of the name that `bs` continues, where the first `skip` bytes belong to a
    character already taken. -/
@[grind =] def nameExtent (skip : Nat) : Bytes → Nat
  | [] => 0
  | b :: rest =>
    match skip with
    | k + 1 => nameExtent k rest + 1
    | 0 =>
      if b < 0x80 then if isNameByte b then nameExtent 0 rest + 1 else 0
      else
        let (c, width) := Text.decodeHead (b :: rest)
        if isNameChar c then nameExtent (width - 1) rest + 1 else 0

/-- The kind of a word: a keyword, the underscore, or a name. -/
def wordKind (text : String) : Kind :=
  if text == "_" then .underscore else (Kind.keyword? text).getD .ident

/-- The text of a word: a name with a character beyond ASCII is brought into normal form. -/
def wordText (bs : Bytes) : String :=
  if bs.all (· < 0x80) then Text.lossy bs else Text.nfc (Text.lossy bs)

/-- The character at `c` belongs nowhere. -/
def unexpected (file : Nat) (c : Cursor) : Lexeme × Cursor :=
  let (char, width) := Text.decodeHead c.rest
  (.error ⟨.unexpectedInput char, c.span file width⟩, c.advance width)

/-- A word at `c`. -/
def word (file : Nat) (c : Cursor) : Lexeme × Cursor :=
  let (first, width) := Text.decodeHead c.rest
  if isNameStart first then
    let n := width + nameExtent 0 (c.rest.drop width)
    let text := wordText (c.rest.take n)
    (.token ⟨wordKind text, c.span file n, text, .none⟩, c.advance n)
  else unexpected file c

/-! ## Numbers -/

/-- The leading digits. -/
def digitRun (bs : Bytes) : Bytes := bs.takeWhile isDecimal

/-- Digits as characters. -/
def digitChars (bs : Bytes) : List Char := bs.map fun b => Char.ofNat b.toNat

/-- The whole number of some digits at `c`. -/
def wholeNumber (file : Nat) (c : Cursor) (whole : Bytes) : Lexeme × Cursor :=
  let span := c.span file whole.length
  let text := String.ofList (digitChars whole)
  let value := Double.digitsValue (digitChars whole)
  let next := c.advance whole.length
  if value < 0x10000000000000000 then (.token ⟨.intLit, span, text, .int value.toUInt64⟩, next)
  else (.error ⟨.integerOverflow text, span⟩, next)

/-- The number of some digits and a fraction at `c`. -/
def decimalNumber (file : Nat) (c : Cursor) (whole fraction : Bytes) : Lexeme × Cursor :=
  let n := whole.length + 1 + fraction.length
  let text := String.ofList (digitChars whole ++ '.' :: digitChars fraction)
  match Double.ofDecimal? (digitChars whole) (digitChars fraction) with
  | some value => (.token ⟨.floatLit, c.span file n, text, .float value⟩, c.advance n)
  | none => (.error ⟨.badNumber text, c.span file n⟩, c.advance n)

/-- A number at `c`: digits, and a fraction if a point and a digit follow. -/
def number (file : Nat) (c : Cursor) : Lexeme × Cursor :=
  let whole := digitRun c.rest
  let fraction := match c.rest.drop whole.length with
    | 0x2E :: rest => digitRun rest
    | _ => []
  if fraction.isEmpty then wholeNumber file c whole else decimalNumber file c whole fraction

/-! ## Strings -/

/-- What a backslash and `c` stand for. -/
def escape? (c : Char) : Option Char :=
  match c with
  | 'n' => some '\n'
  | 't' => some '\t'
  | 'r' => some '\r'
  | '0' => some (Char.ofNat 0)
  | '\\' => some '\\'
  | '"' => some '"'
  | _ => none

/-- The body of a string that started at `start`, read from offset `off` on, where the next `skip`
    bytes belong to a character already taken. `text` holds the characters so far in reverse, and
    `bad` the first escape error. -/
@[grind =]
def stringBody (file start : Nat) (skip off : Nat) (text : List Char) (bad : Option LexError) :
    Bytes → Lexeme × Cursor
  | [] => (.error ⟨.unterminatedString, ⟨file, start, off⟩⟩ bad, ⟨off, []⟩)
  | b :: rest =>
    match skip with
    | k + 1 => stringBody file start k (off + 1) text bad rest
    | 0 =>
      if b == 0x0A || b == 0 then
        (.error ⟨.unterminatedString, ⟨file, start, off⟩⟩ bad, ⟨off, b :: rest⟩)
      else if b == 0x22 then
        let next : Cursor := ⟨off + 1, rest⟩
        match bad with
        | some e => (.error e, next)
        | none =>
          (.token ⟨.stringLit, ⟨file, start, off + 1⟩, String.ofList text.reverse, .none⟩, next)
      else if b == 0x5C then
        match rest with
        | [] => (.error ⟨.unterminatedString, ⟨file, start, off + 1⟩⟩ bad, ⟨off + 1, []⟩)
        | e :: rest' =>
          if e == 0x0A then
            (.error ⟨.unterminatedString, ⟨file, start, off + 1⟩⟩ bad, ⟨off + 1, e :: rest'⟩)
          else
            let (c, width) := Text.decodeHead (e :: rest')
            match escape? c with
            | some d => stringBody file start (width - 1) (off + 2) (d :: text) bad rest'
            | none =>
              let fault : LexError := ⟨.badEscape c, ⟨file, off, off + 1 + width⟩⟩
              stringBody file start (width - 1) (off + 2) text (some (bad.getD fault)) rest'
      else
        let (c, width) := Text.decodeHead (b :: rest)
        stringBody file start (width - 1) (off + 1) (c :: text) bad rest

/-- A string at `c`, which stands before the opening quote. -/
def string (file : Nat) (c : Cursor) : Lexeme × Cursor :=
  stringBody file c.off 0 (c.off + 1) [] none (c.rest.drop 1)

/-! ## Operators -/

/-- The operator or punctuation mark at the head, the longest that fits. -/
@[grind =] def operator? : Bytes → Option Kind
  | 0x2D :: 0x3E :: _ => some .arrow
  | 0x3D :: 0x3D :: _ => some .eqEq
  | 0x21 :: 0x3D :: _ => some .bangEq
  | 0x3E :: 0x3D :: _ => some .gtEq
  | 0x3C :: 0x3D :: _ => some .ltEq
  | 0x28 :: _ => some .lparen
  | 0x29 :: _ => some .rparen
  | 0x7B :: _ => some .lbrace
  | 0x7D :: _ => some .rbrace
  | 0x5B :: _ => some .lbracket
  | 0x5D :: _ => some .rbracket
  | 0x2C :: _ => some .comma
  | 0x2E :: _ => some .dot
  | 0x2D :: _ => some .minus
  | 0x2B :: _ => some .plus
  | 0x2F :: _ => some .slash
  | 0x25 :: _ => some .percent
  | 0x2A :: _ => some .star
  | 0x3A :: _ => some .colon
  | 0x7C :: _ => some .pipe
  | 0x21 :: _ => some .bang
  | 0x3D :: _ => some .assign
  | 0x3E :: _ => some .gt
  | 0x3C :: _ => some .lt
  | 0x5F :: _ => some .underscore
  | _ => none

/-- An operator or punctuation mark at `c`. -/
def operator (file : Nat) (c : Cursor) : Lexeme × Cursor :=
  match operator? c.rest with
  | some k =>
    let n := k.name.length
    (.token ⟨k, c.span file n, k.name, .none⟩, c.advance n)
  | none => unexpected file c

/-! ## The stream -/

/-- The lexeme at `c`, which stands at its first byte and at no line break. An underscore starts a
    name only if an ASCII name byte follows. -/
def lexeme (file : Nat) (c : Cursor) : Lexeme × Cursor :=
  match c.rest with
  | 0x5F :: b :: _ => if isNameByte b then word file c else operator file c
  | 0x5F :: [] => operator file c
  | b :: _ =>
    if isNameStartByte b || b ≥ 0x80 then word file c
    else if isDecimal b then number file c
    else if b == 0x22 then string file c
    else operator file c
  | [] => operator file c

/-- The lexemes from `c` on, at the given depth. Every step but the last takes a byte, so the
    number of bytes bounds the steps. -/
def lexemesFrom (file : Nat) : Nat → Nat → Cursor → List Lexeme
  | 0, _, _ => []
  | steps + 1, depth, c =>
    let c := skipTrivia c
    match c.rest with
    | [] => layout file depth 0 c.off ++ [.token ⟨.eof, .point file c.off, "", .none⟩]
    | 0x0A :: _ =>
      let (line, depth, c) := lineBreak file depth c
      line ++ lexemesFrom file steps depth c
    | _ =>
      let (x, c) := lexeme file c
      x :: lexemesFrom file steps depth c

end Lexer

/-- The lexemes of a source. -/
def lexemes (file : Nat) (source : Bytes) : List Lexeme :=
  Lexer.lexemesFrom file (source.length + 1) 0 ⟨0, source⟩

/-! ## Lexemes one at a time

A stream gives out one lexeme at each call. A line break and the end of the source make several lexemes at
once; those behind the first wait in a queue. The end of file is given out last, and after it every call gives
nothing.

Offsets have 32 bits here. A source of more bytes stops the program, and behind the last offset that 32 bits can
count stands zero, so that a look ahead from there goes wrong. -/

namespace Lexer

/-! ### Looking ahead -/

/-- The two bytes from here on, if there are two. -/
def Cursor.peek2 (c : Cursor) : Except Crash (Option (UInt8 × UInt8)) :=
  if c.off + c.rest.length ≤ (c.off + 1) % 0x100000000 then .ok none
  else match c.rest with
    | a :: b :: _ => .ok (some (a, b))
    | _ => .error .index

/-- The place behind a comment, if one starts here. -/
def passComment (c : Cursor) : Except Crash Cursor :=
  if c.rest.head? == some 0x2F then
    c.peek2.map fun two => if two == some (0x2F, 0x2F) then c.advance (lineExtent c.rest) else c
  else .ok c

/-- The place after white space and a comment on the same line. -/
def passTrivia (c : Cursor) : Except Crash Cursor := passComment (c.advance (c.rest.takeWhile isBlank).length)

/-- The width of leading white space, and the place behind it. -/
def measureIndent (width off : Nat) : Bytes → Nat × Cursor
  | 0x20 :: rest => measureIndent (width + 1) (off + 1) rest
  | 0x09 :: rest => measureIndent (width + indentWidth) (off + 1) rest
  | 0x0D :: rest => measureIndent width (off + 1) rest
  | bs => (width, ⟨off, bs⟩)

/-- The head of the next line with content, looked for in some lines. -/
def nextLine : Nat → Cursor → Except Crash LineHead
  | 0, c => .ok ⟨0, c.off, c⟩
  | lines + 1, c =>
    let (width, content) := measureIndent 0 c.off c.rest
    (passComment content).bind fun behind =>
      match behind.rest with
      | [] => .ok ⟨0, c.off, behind⟩
      | 0x0A :: _ => nextLine lines (behind.advance 1)
      | _ => .ok ⟨width, c.off, behind⟩

/-- A line break at `c`. -/
def scanLine (file depth : Nat) (c : Cursor) : Except Crash (List Lexeme × Nat × Cursor) :=
  (nextLine c.rest.length (c.advance 1)).map (lineTo file depth c)

/-- A number at `c`. -/
def scanNumber (file : Nat) (c : Cursor) : Except Crash (Lexeme × Cursor) :=
  let whole := digitRun c.rest
  (c.advance whole.length).peek2.map fun two =>
    match two with
    | some (0x2E, b) =>
      if isDecimal b then decimalNumber file c whole (digitRun (c.rest.drop (whole.length + 1)))
      else wholeNumber file c whole
    | _ => wholeNumber file c whole

/-- An operator or punctuation mark at `c`. -/
def scanOperator (file : Nat) (c : Cursor) : Except Crash (Lexeme × Cursor) :=
  c.peek2.map fun two =>
    match operator? (two.elim (c.rest.take 1) fun (a, b) => [a, b]) with
    | some k => (.token ⟨k, c.span file k.name.length, k.name, .none⟩, c.advance k.name.length)
    | none => unexpected file c

/-- The lexeme at `c`, which stands at its first byte and at no line break. -/
def scan (file : Nat) (c : Cursor) : Except Crash (Lexeme × Cursor) :=
  match c.rest with
  | 0x5F :: _ => c.peek2.bind fun two =>
    if two.any fun (_, b) => isNameByte b then .ok (word file c) else scanOperator file c
  | b :: _ =>
    if isNameStartByte b || b ≥ 0x80 then .ok (word file c)
    else if isDecimal b then scanNumber file c
    else if b == 0x22 then .ok (string file c)
    else scanOperator file c
  | [] => scanOperator file c

/-! ### Calls -/

/-- What a lexer knows between two calls: the file, the place it has come to, the depth of the last line with
    content, the lexemes that wait, and whether the end of file was given out. -/
structure Stream where
  file : Nat
  cursor : Cursor
  depth : Nat := 0
  queue : List Lexeme := []
  done : Bool := false
  deriving DecidableEq, Repr

/-- The lexeme is the end of file. -/
def isEnd (l : Lexeme) : Bool := l.toToken.kind == .eof

namespace Stream

/-- The stream of a source, before its first call. -/
def start (file : Nat) (source : Bytes) : Except Crash Stream :=
  (narrow source.length .contentLength).map fun _ => { file, cursor := ⟨0, source⟩ }

/-- Gives out the first of some lexemes and lets the others wait. With the end of file the stream is done. -/
def give (s : Stream) : List Lexeme → Option Lexeme × Stream
  | [] => (none, s)
  | l :: rest => (some l, if isEnd l then { s with queue := [], done := true } else { s with queue := rest })

/-- One call: the next lexeme, if there is one, and the stream after it. -/
def next (s : Stream) : Except Crash (Option Lexeme × Stream) :=
  if s.done then .ok (none, s)
  else if !s.queue.isEmpty then .ok (s.give s.queue)
  else (passTrivia s.cursor).bind fun c =>
    match c.rest with
    | [] =>
      .ok ({ s with cursor := c, depth := 0 }.give
        (layout s.file s.depth 0 c.off ++ [Lexeme.token ⟨.eof, .point s.file c.off, "", .none⟩]))
    | 0x0A :: _ => (scanLine s.file s.depth c).map fun (line, depth, c) => { s with cursor := c, depth }.give line
    | _ => (scan s.file c).map fun (x, c) => (some x, { s with cursor := c })

/-- The stream after some calls. -/
def after (s : Stream) : Nat → Except Crash Stream
  | 0 => .ok s
  | calls + 1 => s.next.bind (·.2.after calls)

/-- What one of the calls gives, counted from zero. -/
def answer (s : Stream) (call : Nat) : Except Crash (Option Lexeme) := (s.after call).bind (·.next.map (·.1))

end Stream
end Lexer

/-- What one of the calls of a lexer for a source gives, counted from zero. -/
def lexerAnswer (file : Nat) (source : Bytes) (call : Nat) : Except Crash (Option Lexeme) :=
  (Lexer.Stream.start file source).bind (·.answer call)

end PineLang
