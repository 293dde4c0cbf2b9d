import PineLang.Number.Double
import PineLang.Text.Timestamp
import PineLang.Toml.Value
import PineLang.Unicode.Category

/-!
# Reading TOML

A document is read statement by statement: the head of a table, the head of a table in an array of
tables, or a key with its value. What the statements mean together is not decided here.
-/
namespace PineLang.Toml

/-- What is left to read. `broken` is the byte that is part of no character and ends the text
    early; `key` is the key that was read last. -/
structure Cursor where
  rest : List Char
  broken : Option UInt8 := none
  line : Nat := 1
  key : Key := []

/-- A step of reading. -/
abbrev Read := StateT Cursor (Except Fault)

/-- Fails here. -/
def complain {α : Type} (message : String) : Read α := fun c =>
  .error ⟨some c.line, c.key, message⟩

/-- Fails at the line before this one, for a fault that a line end has shown. -/
def complainBefore {α : Type} (message : String) : Read α := fun c =>
  .error ⟨some (c.line - 1), c.key, message⟩

/-- Fails because of what was read; at the end of the text the line before is named. -/
def complainOf {α : Type} (r : Option Char) (message : String) : Read α :=
  if r.isNone then complainBefore message else complain message

/-- How a character is named in a message. -/
def charName (r : Option Char) : String := Text.quotedChar (r.getD (Char.ofNat 0))

/-- A character that no document may hold: a control other than a tab and a line end, or a carriage
    return that belongs to no line end. -/
def isRefused (c : Char) (rest : List Char) : Bool :=
  if c == '\r' then rest.head? != some '\n'
  else c != '\t' && c != '\n' && (c.toNat < 0x20 || c.toNat == 0x7F)

/-- Reads one character; none at the end. -/
def next : Read (Option Char) := fun c =>
  match c.rest, c.broken with
  | [], none => .ok (none, c)
  | [], some b =>
    .error ⟨some c.line, c.key, "invalid UTF-8 byte: 0x" ++ Text.hexPadded 2 b.toNat⟩
  | x :: rest, _ =>
    let line := if x == '\n' then c.line + 1 else c.line
    if isRefused x rest then
      .error ⟨some line, c.key,
        "TOML files cannot contain control characters: '0x" ++ Text.hexPadded 2 x.toNat ++ "'"⟩
    else .ok (some x, { c with rest, line })

/-- The character that comes next. -/
def peek : Read (Option Char) := do
  let here ← get
  let r ← next
  set here
  return r

/-- Reads on while a test holds. -/
def readWhile (p : Char → Bool) : Read (List Char) := fun c =>
  .ok (c.rest.takeWhile p, { c with rest := c.rest.dropWhile p })

/-- Reads a given character if it comes next. -/
def accept (x : Char) : Read Bool := fun c =>
  if c.rest.head? == some x then .ok (true, { c with rest := c.rest.drop 1 }) else .ok (false, c)

/-- White space within a line. -/
def isBlank (c : Char) : Bool := c == ' ' || c == '\t'

/-- Part of a line end. -/
def isLineEnd (c : Char) : Bool := c == '\n' || c == '\r'

/-- Skips white space within a line. -/
def skipBlanks : Read Unit := do
  let _ ← readWhile isBlank
  return ()

/-- Skips white space and line ends, up to `fuel` characters. -/
def skipLayout : Nat → Read Unit
  | 0 => return ()
  | fuel + 1 => do
    match ← peek with
    | some c =>
      if isBlank c || isLineEnd c then
        let _ ← next
        skipLayout fuel
      else return ()
    | none => return ()

/-- Skips a comment up to its line end, of up to `fuel` characters. -/
def skipComment : Nat → Read Unit
  | 0 => return ()
  | fuel + 1 => do
    match ← peek with
    | some c =>
      if isLineEnd c then return ()
      else
        let _ ← next
        skipComment fuel
    | none => return ()

/-- How many characters are left. -/
def left : Read Nat := do return (← get).rest.length

/-- Skips white space, line ends and comments, in up to `fuel` pieces. -/
def skipFiller : Nat → Read Unit
  | 0 => return ()
  | fuel + 1 => do
    skipLayout (← left)
    if (← peek) == some '#' then
      skipComment (← left)
      skipFiller fuel
    else return ()

/-! ## Strings -/

/-- A hexadecimal digit. -/
def isHex (c : Char) : Bool :=
  c.isDigit || ('a' ≤ c && c ≤ 'f') || ('A' ≤ c && c ≤ 'F')

/-- The value of hexadecimal digits. -/
def hexValue (cs : List Char) : Nat :=
  cs.foldl (fun n c => n * 16 +
    (if c.isDigit then c.toNat - 48 else if c ≥ 'a' then c.toNat - 87 else c.toNat - 55)) 0

/-- Reads the digits of an escape by number. -/
def readCode (letter : Char) (count : Nat) (word : String) : Read Char := do
  let c ← get
  let digits := c.rest.take count
  if digits.length == count && digits.all isHex then
    set { c with rest := c.rest.drop count }
    let n := hexValue digits
    if n < 0xD800 || (0xDFFF < n && n < 0x110000) then return Char.ofNat n
    else complain ("Escaped character '\\" ++ String.ofList (letter :: digits) ++ "' is not valid UTF-8.")
  else
    complain ("expected " ++ word ++ " hexadecimal digits after '\\" ++ String.singleton letter ++
      "', but got " ++ Text.quoted (String.ofList (letter :: digits)) ++ " instead")

/-- Reads what follows the backslash of an escape. -/
def readEscape : Read Char := do
  match ← next with
  | some 'b' => return Char.ofNat 8
  | some 't' => return '\t'
  | some 'n' => return '\n'
  | some 'f' => return Char.ofNat 12
  | some 'r' => return '\r'
  | some '"' => return '"'
  | some '\\' => return '\\'
  | some 'u' => readCode 'u' 4 "four"
  | some 'U' => readCode 'U' 8 "eight"
  | r => complainOf r ("invalid escape in string '\\" ++ String.singleton (r.getD (Char.ofNat 0)) ++ "'")

/-- Reads the rest of a string on one line; `done` is reversed. Only a string in double quotes has
    escapes. -/
def readString (quote : Char) (done : List Char) : Nat → Read String
  | 0 => complainBefore "unexpected EOF"
  | fuel + 1 => do
    match ← next with
    | none =>
      complainBefore ("unexpected EOF; expected " ++ if quote == '"' then "'\"'" else "\"'\"")
    | some c =>
      if c == quote then return String.ofList done.reverse
      else if c == '\r' then complainBefore "strings cannot contain newlines"
      else if c == '\n' then complainBefore "strings cannot contain newlines"
      else if c == '\\' && quote == '"' then
        let e ← readEscape
        readString quote (e :: done) fuel
      else readString quote (c :: done) fuel

/-- Reads the rest of a string over several lines; `done` is reversed. Up to two quotes are part of
    it, also before the closing three, and a backslash joins a line to the next text. -/
def readLongString (quote : Char) (done : List Char) : Nat → Read String
  | 0 => complainBefore "unexpected EOF"
  | fuel + 1 => do
    match ← next with
    | none => complainBefore ("unexpected EOF; expected " ++
        if quote == '"' then "'\"\"\"'" else "\"'''\"")
    | some c =>
      if c == quote then
        let run := 1 + (← readWhile (· == quote)).length
        if run ≥ 6 then complain (if quote == '"' then "unexpected '\"\"\"\"\"\"'" else "unexpected \"''''''\"")
        else if run ≥ 3 then
          return String.ofList (List.replicate (run - 3) quote ++ done).reverse
        else readLongString quote (List.replicate run quote ++ done) fuel
      else if c == '\\' && quote == '"' then
        let start ← get
        skipLayout start.rest.length
        if (← get).line > start.line then readLongString quote done fuel
        else if (start.rest.head?.map isBlank).getD false then
          complain ("invalid escape: '\\" ++ String.singleton (start.rest.head?.getD ' ') ++ "'")
        else
          let e ← readEscape
          readLongString quote (e :: done) fuel
      else readLongString quote (c :: done) fuel

/-- Skips one line end. -/
def skipLineEnd : Read Unit := do
  let _ ← accept '\r'
  if ← accept '\n' then modify fun c => { c with line := c.line + 1 }

/-- Reads a string whose first quote was read. -/
def readText (quote : Char) : Read String := do
  if (← get).rest.take 2 == [quote, quote] then
    modify fun c => { c with rest := c.rest.drop 2 }
    skipLineEnd
    readLongString quote [] ((← left) + 1)
  else readString quote [] ((← left) + 1)

/-! ## Numbers and dates -/

/-- Every underscore stands between digits, and the text ends in a digit. -/
def underscoresFit (cs : List Char) : Bool :=
  ["nan", "+nan", "-nan", "inf", "-inf", "+inf"].contains (String.ofList cs) ||
    (cs.foldl (fun (ok, digit) c => (ok && (c != '_' || digit), isHex c)) (true, false)) == (true, true)

/-- A zero stands before other digits. -/
def hasLeadingZero : List Char → Bool
  | s :: '0' :: _ :: _ => s == '-' || s == '+' || s == '0'
  | '0' :: c :: _ => !(c == 'b' || c == 'o' || c == 'x')
  | _ => false

/-- The value of an integer without underscores. -/
def integerValue : List Char → Int
  | '-' :: cs => -(Double.digitsValue cs : Int)
  | '+' :: cs => Double.digitsValue cs
  | '0' :: 'x' :: cs => hexValue cs
  | '0' :: 'o' :: cs => cs.foldl (fun n c => n * 8 + (c.toNat - 48)) 0
  | '0' :: 'b' :: cs => cs.foldl (fun n c => n * 2 + (c.toNat - 48)) 0
  | cs => Double.digitsValue cs

/-- An integer, if it is written well and fits in sixty-four bits. -/
def integer (cs : List Char) : Read Value := do
  let spelling := String.ofList cs
  let v := integerValue (cs.filter (· != '_'))
  if !underscoresFit cs then
    complain ("Invalid integer " ++ Text.quoted spelling ++ ": underscores must be surrounded by digits")
  else if hasLeadingZero cs then
    complain ("Invalid integer " ++ Text.quoted spelling ++ ": cannot have leading zeroes")
  else if v < -0x8000000000000000 || v ≥ 0x8000000000000000 then complain (spelling ++ " is out of range for int64")
  else return .integer spelling

/-- Splits digits with a fraction and an exponent into whole digits, decimals and exponent; none if
    the text has another form. -/
def decimalParts? (cs : List Char) : Option (List Char × List Char × Int) :=
  let cs := if cs.head? == some '-' || cs.head? == some '+' then cs.drop 1 else cs
  let whole := cs.takeWhile Char.isDigit
  let rest := cs.dropWhile Char.isDigit
  let (decimals, rest) := if rest.head? == some '.' then
      ((rest.drop 1).takeWhile Char.isDigit, (rest.drop 1).dropWhile Char.isDigit)
    else ([], rest)
  match rest with
  | [] => some (whole, decimals, 0)
  | e :: rest =>
    let negative := rest.head? == some '-'
    let digits := if negative || rest.head? == some '+' then rest.drop 1 else rest
    if (e == 'e' || e == 'E') && !digits.isEmpty && digits.all Char.isDigit then
      let n : Int := Double.digitsValue digits
      some (whole, decimals, if negative then -n else n)
    else none

/-- The decimal lies beyond the greatest double. -/
def isHuge (whole decimals : List Char) (exponent : Int) : Bool :=
  let ds := (whole ++ decimals).dropWhile (· == '0')
  let scale : Int := exponent - decimals.length
  if ds.isEmpty then false
  else if ds.length + scale > 400 then true
  else if ds.length + scale < 0 then false
  else if scale ≥ 0 then (Double.ofRatio? (Double.digitsValue ds * Nat.pow 10 scale.toNat) 1).isNone
  else (Double.ofRatio? (Double.digitsValue ds) (Nat.pow 10 (-scale).toNat)).isNone

/-- Every point is followed by a digit. -/
def pointsFit : List Char → Bool
  | '.' :: c :: rest => c.isDigit && pointsFit (c :: rest)
  | ['.'] => false
  | _ :: rest => pointsFit rest
  | [] => true

/-- A float, if it is written well and is not too great. -/
def float (cs : List Char) : Read Value := do
  let spelling := String.ofList cs
  let parts := (cs.splitOnP fun c => c == '.' || c == 'e' || c == 'E').filter (!·.isEmpty)
  if !(parts.all underscoresFit) then
    complain ("Invalid float " ++ Text.quoted spelling ++ ": underscores must be surrounded by digits")
  else if (parts.head?.map hasLeadingZero).getD false then
    complain ("Invalid float " ++ Text.quoted spelling ++ ": cannot have leading zeroes")
  else if !pointsFit cs then
    complain ("Invalid float " ++ Text.quoted spelling ++ ": '.' must be followed by one or more digits")
  else match decimalParts? (cs.filter (· != '_')) with
    | some (whole, decimals, exponent) =>
      if isHuge whole decimals exponent then complain (spelling ++ " is out of range for float64")
      else return .float spelling
    | none => complain ("Invalid float value: " ++ Text.quoted spelling)

/-- What follows a number of two digits below `bound`. -/
def afterPair? (bound : Nat) : List Char → Option (List Char)
  | a :: b :: rest =>
    if a.isDigit && b.isDigit && Double.digitsValue [a, b] < bound then some rest else none
  | _ => none

/-- What follows a time of day. -/
def afterClock? (cs : List Char) : Option (List Char) := do
  let rest ← Text.Timestamp.after? ':' (← Text.Timestamp.afterBelow? 24 cs)
  let rest ← Text.Timestamp.after? ':' (← afterPair? 60 rest)
  return Text.Timestamp.afterFraction (← afterPair? 60 rest)

/-- A date, a time of day, or both with or without a zone. -/
def isMoment (cs : List Char) : Bool :=
  let dated := Text.Timestamp.afterDate? (cs.take 10) == some [] && (cs.take 10).length == 10
  match cs.drop 10 with
  | [] => dated || afterClock? cs == some []
  | 'T' :: rest =>
    dated && match afterClock? rest with
      | some zone => zone.isEmpty || Text.Timestamp.isZone zone
      | none => false
  | _ => afterClock? cs == some []

/-- A date or time, if it is one. -/
def moment (cs : List Char) : Read Value := do
  let trimmed := (cs.reverse.dropWhile (· == ' ')).reverse
  let plain := trimmed.map fun c =>
    if c == 't' || c == ' ' then 'T' else if c == 'z' then 'Z' else c
  if isMoment plain then return .time (String.ofList plain)
  else complain ("Invalid TOML Datetime: " ++ Text.quoted (String.ofList plain) ++ ".")

/-- Digits and underscores, then perhaps a fraction or an exponent. -/
def readDecimal (done : List Char) : Read Value := do
  let ds ← readWhile fun c => c.isDigit || c == '_'
  match (← get).rest.head? with
  | some c =>
    if c == '.' || c == 'e' || c == 'E' then
      float (done ++ ds ++ (← readWhile fun c => c.isDigit || "_.-+eE".contains c))
    else integer (done ++ ds)
  | none => integer (done ++ ds)

/-- Digits of another base, after its letter. -/
def readBased (letter : Char) (word : String) (p : Char → Bool) : Read Value := do
  let _ ← next
  match ← peek with
  | some c =>
    if p c then integer ('0' :: letter :: (← readWhile fun c => p c || c == '_'))
    else complain ("not " ++ word ++ " number: '0" ++ String.ofList [letter, c] ++ "'")
  | none => complain ("not " ++ word ++ " number: '0" ++ String.ofList [letter, Char.ofNat 0] ++ "'")

/-- A number or a date that starts with a digit. -/
def readNumber : Read Value := do
  match (← get).rest with
  | '0' :: 'b' :: _ => do let _ ← next; readBased 'b' "a binary" fun c => c == '0' || c == '1'
  | '0' :: 'o' :: _ => do let _ ← next; readBased 'o' "an octal" fun c => '0' ≤ c && c ≤ '7'
  | '0' :: 'x' :: _ => do let _ ← next; readBased 'x' "a hexidecimal" isHex
  | _ =>
    let ds ← readWhile Char.isDigit
    match (← get).rest.head? with
    | some c =>
      if (c == '-' || c == ':') && ds != ['0'] then
        moment (ds ++ (← readWhile fun c => c.isDigit || "-:Tt .Zz+".contains c))
      else readDecimal ds
    | none => readDecimal ds

/-- A number after its sign. -/
def readSigned (sign : Char) : Read Value := do
  let c ← next
  let rest := (← get).rest
  let word (letters : List Char) : Read Value := do
    if letters.isPrefixOf rest then
      modify fun s => { s with rest := s.rest.drop 2 }
      return .float (String.ofList (sign :: c.toList ++ letters))
    else
      let shown := sign :: c.toList ++ (if rest.head? == letters.head? then rest.take 1 else [])
      complain ("invalid float: '" ++ String.ofList shown ++ "'")
  match c with
  | some 'i' => word ['n', 'f']
  | some 'n' => word ['a', 'n']
  | some '.' => complain "floats must start with a digit, not '.'"
  | some d =>
    if d.isDigit then
      match d, rest.head? with
      | '0', some b =>
        if b == 'b' || b == 'o' || b == 'x' then
          complain ("cannot use sign with non-decimal numbers: '" ++ String.ofList [sign, d, b] ++ "'")
        else readDecimal [sign, d]
      | _, _ => readDecimal [sign, d]
    else complain ("expected a digit but got " ++ charName c)
  | none => complainBefore ("expected a digit but got " ++ charName c)

/-- A word: a truth value, or one of the floats that have no digits. -/
def readWord : Read Value := do
  let rest := (← get).rest
  if ['i', 'n', 'f'].isPrefixOf rest || ['n', 'a', 'n'].isPrefixOf rest then
    modify fun s => { s with rest := s.rest.drop 3 }
    return .float (String.ofList (rest.take 3))
  else
    let w := String.ofList (← readWhile Text.isLetter)
    if w == "true" then return .boolean true
    else if w == "false" then return .boolean false
    else complain ("expected value but found " ++ Text.quoted w ++ " instead")

/-! ## Keys -/

/-- Reads one part of a key. -/
def readPart : Read String := do
  match ← peek with
  | some c =>
    if c == '"' || c == '\'' then
      let _ ← next
      readString c [] ((← left) + 1)
    else return String.ofList (← readWhile isBare)
  | none => return ""

/-- Reads the parts of a key up to its equals sign, of up to `fuel` parts. -/
def readParts (first : Bool) : Nat → Read Key
  | 0 => complain "unexpected '='"
  | fuel + 1 => do
    skipBlanks
    match ← peek with
    | none | some '=' => complain (if first then "unexpected '=': key name appears blank" else "unexpected '='")
    | some '.' => complain (if first then "unexpected '.': keys cannot start with a '.'" else "unexpected '.'")
    | _ =>
      let part ← readPart
      skipBlanks
      match ← next with
      | some '.' => return part :: (← readParts false fuel)
      | some '=' => return [part]
      | none => complainBefore "unexpected EOF; expected key separator '='"
      | r => complain ("expected '.' or '=', but got " ++ charName r ++ " instead")

/-- Reads the parts of a table's name up to its bracket, of up to `fuel` parts. -/
def readName : Nat → Read Key
  | 0 => complain "unexpected end of table name (table names cannot be empty)"
  | fuel + 1 => do
    skipBlanks
    match ← peek with
    | none | some ']' => complain "unexpected end of table name (table names cannot be empty)"
    | some '.' => complain "unexpected table separator (table names cannot be empty)"
    | _ =>
      let part ← readPart
      skipBlanks
      match ← next with
      | some '.' => return part :: (← readName fuel)
      | some ']' => return [part]
      | r => complainOf r ("expected '.' or ']' to end table name, but got " ++ charName r ++ " instead")

/-! ## Values -/

/-- How what was found is named where something else was expected. -/
def foundName : Option Char → String
  | none => "end of file"
  | some c => Text.quotedChar c

mutual

/-- Reads a value, of up to `fuel` parts. -/
def readValue : Nat → Read Value
  | 0 => complain "unexpected EOF; expected value"
  | fuel + 1 => do
    skipBlanks
    match ← peek with
    | some '[' => do let _ ← next; readItems [] fuel
    | some '\x7b' => do let _ ← next; readPairs [] fuel
    | some '.' => complain "floats must start with a digit, not '.'"
    | some c =>
      if c == '"' || c == '\'' then do let _ ← next; return .text (← readText c)
      else if c.isDigit then readNumber
      else if c == '-' || c == '+' then do let _ ← next; readSigned c
      else if Text.isLetter c then readWord
      else
        let _ ← next
        complain ("expected value but found " ++ Text.quotedChar c ++ " instead")
    | none => complainBefore "unexpected EOF; expected value"

/-- Reads the rest of an array; `done` is reversed. -/
def readItems (done : List Value) : Nat → Read Value
  | 0 => complain "unexpected EOF"
  | fuel + 1 => do
    skipFiller (← left)
    match ← peek with
    | some ',' => do let _ ← next; complain "unexpected comma"
    | some ']' => do let _ ← next; return .array done.reverse
    | _ =>
      let v ← readValue fuel
      skipFiller (← left)
      match ← next with
      | some ',' => readItems (v :: done) fuel
      | some ']' => return .array (v :: done).reverse
      | r => complainOf r ("expected a comma (',') or array terminator (']'), but got " ++ foundName r)

/-- Reads the rest of an inline table; `done` is reversed. -/
def readPairs (done : List (Key × Nat × Value)) : Nat → Read Value
  | 0 => complain "unexpected EOF"
  | fuel + 1 => do
    skipBlanks
    match ← peek with
    | some '\x7d' => do let _ ← next; return .inline done.reverse
    | some ',' => do let _ ← next; complain "unexpected comma"
    | r =>
      if r == some '#' then skipComment (← left)
      if (← peek).any isLineEnd then
        let _ ← next
        complainBefore "newlines not allowed within inline tables"
      else
        let outer := (← get).key
        let key ← readParts true ((← left) + 1)
        let line := (← get).line
        modify fun c => { c with key := outer ++ key }
        let v ← readValue fuel
        modify fun c => { c with key := outer }
        skipBlanks
        if (← peek) == some '#' then skipComment (← left)
        match ← next with
        | some ',' =>
          skipBlanks
          if (← peek) == some '\x7d' then complain "trailing comma not allowed in inline tables"
          else readPairs ((key, line, v) :: done) fuel
        | some '\x7d' => return .inline ((key, line, v) :: done).reverse
        | r =>
          if r.any isLineEnd then complainBefore "newlines not allowed within inline tables"
          else complainOf r ("expected a comma or an inline table terminator '\x7d', but got " ++
            foundName r ++ " instead")

end

/-! ## Statements -/

/-- A statement of a document, with the line of its key. -/
inductive Statement where
  | table (name : Key) (line : Nat)
  | item (name : Key) (line : Nat)
  | pair (key : Key) (line : Nat) (value : Value)

/-- Reads up to the end of the line. -/
def readEnd : Read Unit := do
  skipBlanks
  if (← peek) == some '#' then skipComment (← left)
  match ← next with
  | none => return ()
  | r =>
    if r.any isLineEnd then return ()
    else complain ("expected a top-level item to end with a newline, comment, or EOF, but got " ++
      charName r ++ " instead")

/-- Reads the next statement without the end of its line; none at the end of the document. `context`
    is the table that keys belong to. -/
def readStatement (context : Key) : Read (Option Statement) := do
  skipFiller ((← left) + 1)
  match ← peek with
  | none => return none
  | some '[' =>
    let _ ← next
    let line := (← get).line
    if ← accept '[' then
      let name ← readName ((← left) + 1)
      match ← next with
      | some ']' => return some (.item name line)
      | r => complainOf r ("expected end of table array name delimiter ']', but got " ++ charName r ++ " instead")
    else return some (.table (← readName ((← left) + 1)) line)
  | some _ =>
    let key ← readParts true ((← left) + 1)
    let line := (← get).line
    modify fun c => { c with key := context ++ key }
    let v ← readValue (2 * (← left) + 2)
    return some (.pair key line v)

/-- The start of a document: a byte order mark is skipped. -/
def Cursor.ofBytes (bs : Bytes) : Cursor :=
  let bs := if [0xFF, 0xFE].isPrefixOf bs || [0xFE, 0xFF].isPrefixOf bs then bs.drop 2
    else if [0xEF, 0xBB, 0xBF].isPrefixOf bs then bs.drop 3 else bs
  let units := Text.units bs
  let good := units.takeWhile fun u => match u with | .char _ => true | .stray _ => false
  { rest := good.map Text.Unit8.toChar
    broken := match units.drop good.length with
      | .stray b :: _ => some b
      | _ => none }

end PineLang.Toml
