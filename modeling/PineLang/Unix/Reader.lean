import PineLang.Unix.Script

/-!
# Reading scripts

A script is read command by command: each call reads the commands up to the end of a line, so that
what stands before a fault has run when the fault is met.
-/
namespace PineLang.Shell

/-- Why a script cannot be read, with the line where that was seen. -/
structure ReadFault where
  line : Nat
  message : String
  deriving DecidableEq, Repr

/-- A token: a word with its line, an operator, a redirection with its channel, or an end. -/
inductive Token where
  | word (line : Nat) (w : Word)
  | op (s : String)
  | redirect (channel : Option Nat) (op : String)
  | newline
  | eof

/-- A document that is announced and still to be read. -/
structure Announced where
  number : Nat
  mark : String
  stripsTabs : Bool
  isLiteral : Bool

/-- What is left to read. `held` is a token that was read ahead; `documents` are those read. -/
structure Source where
  rest : List Char
  line : Nat := 1
  held : Option Token := none
  announced : List Announced := []
  documents : List (Nat × Word) := []
  count : Nat := 0

/-- A step of reading. -/
abbrev Read := StateT Source (Except ReadFault)

/-- Fails here. -/
def refuse {α : Type} (message : String) : Read α := fun s => .error ⟨s.line, message⟩

/-- Takes characters off; line ends are counted. -/
def skipChars (n : Nat) : Read Unit :=
  modify fun s => { s with
    rest := s.rest.drop n, line := s.line + ((s.rest.take n).filter (· == '\n')).length }

/-- The characters that are left. -/
def rest : Read (List Char) := do return (← get).rest

/-! ## Words -/

/-- A character that ends a word. -/
def endsWord (c : Char) : Bool := " \t\n;&|<>()".contains c

/-- Where pieces stand: in a plain word, between double quotes, in braces outside or inside of
    quotes, in a document, or in a sum. -/
inductive Place where
  | plain | quoted | braces | quotedBraces | document | sum
  deriving DecidableEq, Repr

/-- What stands here is quoted. -/
def Place.isQuoted : Place → Bool
  | plain | braces => false
  | quoted | quotedBraces | document | sum => true

/-- The characters that a backslash can take the meaning from at a place; none if it can do so for
    every character. -/
def Place.escapable : Place → Option String
  | plain | braces => none
  | quoted | sum => some "$`\"\\"
  | quotedBraces => some "$`\"\\\x7d"
  | document => some "$`\\"

/-- The text between back quotes, without the backslashes that only protect it; none if it is not
    closed. The second part is what follows. -/
def backQuoted (inQuotes : Bool) (done : List Char) : List Char → Option (List Char × List Char)
  | [] => none
  | '\x60' :: rest => some (done.reverse, rest)
  | '\\' :: c :: rest =>
    if c == '\x60' || c == '\\' || c == '$' || (inQuotes && c == '"') then
      backQuoted inQuotes (c :: done) rest
    else backQuoted inQuotes (c :: '\\' :: done) rest
  | c :: rest => backQuoted inQuotes (c :: done) rest

/-- The words that have a meaning of their own at the start of a command. -/
def keywords : List String :=
  ["!", "case", "do", "done", "elif", "else", "esac", "fi", "for", "if", "in", "then", "until",
   "while", "\x7b", "\x7d"]

/-- The keywords that end a list of commands. -/
def closers : List String := ["do", "done", "elif", "else", "esac", "fi", "then", "\x7d"]

/-- The name of a token in a complaint. Keywords are known only where a command may start. -/
def Token.name (asKeyword : Bool) : Token → String
  | .word _ w =>
    match bareText w with
    | some s => if asKeyword && keywords.contains s then "\"" ++ s ++ "\"" else "word"
    | none => "word"
  | .op s => "\"" ++ s ++ "\""
  | .redirect _ _ => "redirection"
  | .newline => "newline"
  | .eof => "end of file"

/-- Fails because of a token where another was expected. -/
def unexpected {α : Type} (asKeyword : Bool) (t : Token) (expected : String := "") : Read α :=
  refuse ("Syntax error: " ++ t.name asKeyword ++ " unexpected" ++
    if expected.isEmpty then "" else " (expecting \"" ++ expected ++ "\")")

/-- Skips the rest of a comment. -/
def skipComment : Read Unit :=
  modify fun s => { s with rest := s.rest.dropWhile (· != '\n') }

/-- Skips blanks, joined lines and comments, in at most `fuel` pieces. -/
def skipBlanks : Nat → Read Unit
  | 0 => return ()
  | fuel + 1 => do
    match ← rest with
    | ' ' :: _ | '\t' :: _ => do skipChars 1; skipBlanks fuel
    | '\\' :: '\n' :: _ => do skipChars 2; skipBlanks fuel
    | '#' :: _ => skipComment
    | _ => return ()

/-- The operators, longer ones first. -/
def operators : List String := ["&&", "||", ";;", ";", "&", "|", "(", ")"]

/-- The redirections, longer ones first. -/
def redirections : List String := ["<<-", "<<", "<&", "<>", ">>", ">&", ">|", "<", ">"]

/-- Makes a document known that is read after this line. -/
def announce (mark : Word) (stripsTabs : Bool) : Read Nat := do
  let s ← get
  let text := String.join (mark.map fun p => match p with
    | .text t _ => t
    | .param name _ _ => "$" ++ name
    | _ => "")
  let document : Announced := ⟨s.count, text, stripsTabs, (bareText mark).isNone⟩
  set { s with count := s.count + 1, announced := s.announced ++ [document] }
  return s.count

/-- The lines of a document up to its mark, of at most `fuel` lines, and what follows. -/
def documentLines (mark : List Char) (stripsTabs : Bool) : Nat → List Char → List Char × List Char
  | 0, cs => ([], cs)
  | fuel + 1, cs =>
    if cs.isEmpty then ([], [])
    else
      let line := cs.takeWhile (· != '\n')
      let after := cs.drop (line.length + 1)
      let shown := if stripsTabs then line.dropWhile (· == '\t') else line
      if shown == mark then ([], after)
      else
        let (more, last) := documentLines mark stripsTabs fuel after
        (shown ++ '\n' :: more, last)

/-- An assignment: its name and its value. -/
def assignment? (w : Word) : Option (String × Word) :=
  match w with
  | .text t false :: more =>
    let name := t.toList.takeWhile (· != '=')
    if name.length < t.length && isNameText (String.ofList name) then
      let value := String.ofList (t.toList.drop (name.length + 1))
      some (String.ofList name, if value.isEmpty then more else .text value false :: more)
    else none
  | _ => none

/-- Adds a piece in front of a word; plain text is joined. -/
def joinPiece : Piece → Word → Word
  | .text a p, .text b q :: w => if p == q then .text (a ++ b) p :: w else .text a p :: .text b q :: w
  | p, w => p :: w

/-- The change that the mark after a parameter's name asks for; the number says how many characters
    the mark takes. -/
def changeMark? : List Char → Option (Nat × (Word → Change))
  | ':' :: '-' :: _ => some (2, .fallback true)
  | ':' :: '=' :: _ => some (2, .assign true)
  | ':' :: '+' :: _ => some (2, .alternative true)
  | ':' :: '?' :: _ => some (2, .require true)
  | '-' :: _ => some (1, .fallback false)
  | '=' :: _ => some (1, .assign false)
  | '+' :: _ => some (1, .alternative false)
  | '?' :: _ => some (1, .require false)
  | '%' :: '%' :: _ => some (2, .trim true true)
  | '%' :: _ => some (1, .trim true false)
  | '#' :: '#' :: _ => some (2, .trim false true)
  | '#' :: _ => some (1, .trim false false)
  | _ => none

/-- The name of a parameter at the start of a text. -/
def paramName (cs : List Char) : List Char :=
  match cs with
  | [] => []
  | c :: _ =>
    if c.isAlpha || c == '_' then cs.takeWhile isName
    else if c.isDigit then cs.takeWhile Char.isDigit
    else if "#?@*$!-".contains c then [c]
    else []

/-- A token that ends a list of commands. -/
def endsList : Token → Bool
  | .eof | .op ")" | .op ";;" => true
  | .word _ w => (bareText w).any closers.contains
  | _ => false

mutual

/-- Reads pieces up to the end of their place. The end is taken off, but for a plain word. -/
def readPieces (place : Place) (depth : Nat) : Nat → Read Word
  | 0 => refuse "Syntax error: Unterminated quoted string"
  | fuel + 1 => do
    let put (s : String) (isQuoted : Bool) : Read Word := do
      return joinPiece (.text s isQuoted) (← readPieces place depth fuel)
    match ← rest with
    | [] =>
      match place with
      | .plain | .document => return []
      | .quoted => refuse "Syntax error: Unterminated quoted string"
      | .sum => refuse "Syntax error: Missing '))'"
      | .braces | .quotedBraces => do
        -- the line before is meant if the text ended with it
        modify fun s => { s with line := s.line - 1 }
        refuse "Syntax error: Missing '\x7d'"
    | c :: cs =>
      if place == .plain && endsWord c then return []
      else if c == '"' && place == .quoted then do
        skipChars 1
        return [.text "" true]
      else if c == '\x7d' && (place == .braces || place == .quotedBraces) then do
        skipChars 1
        return []
      else if c == ')' && place == .sum && depth == 0 then
        if cs.head? == some ')' then do skipChars 2; return []
        else refuse "Syntax error: Missing '))'"
      else if (c == '(' || c == ')') && place == .sum then do
        skipChars 1
        return joinPiece (.text (String.singleton c) true)
          (← readPieces place (if c == '(' then depth + 1 else depth - 1) fuel)
      else match c with
        | '\\' =>
          match cs with
          | '\n' :: _ => do skipChars 2; readPieces place depth fuel
          | d :: _ => do
            skipChars 2
            match place.escapable with
            | none => put (String.singleton d) true
            | some marks =>
              if marks.contains d then put (String.singleton d) true
              else put (String.ofList ['\\', d]) true
          | [] => do skipChars 1; put "\\" true
        | '\'' =>
          if place.isQuoted then do skipChars 1; put "'" true
          else do
            skipChars 1
            let inner := cs.takeWhile (· != '\'')
            if inner.length == cs.length then
              skipChars cs.length
              refuse "Syntax error: Unterminated quoted string"
            skipChars (inner.length + 1)
            return .text (String.ofList inner) true :: (← readPieces place depth fuel)
        | '"' =>
          if place == .document || place == .sum then do skipChars 1; put "\"" true
          else do
            skipChars 1
            let inner ← readPieces .quoted 0 fuel
            return inner ++ (← readPieces place depth fuel)
        | '$' => do
          skipChars 1
          match ← readDollar place fuel with
          | some p => return joinPiece p (← readPieces place depth fuel)
          | none => put "$" place.isQuoted
        | '\x60' => do
          skipChars 1
          match backQuoted place.isQuoted [] cs with
          | none => do
            skipChars cs.length
            refuse "Syntax error: EOF in backquote substitution"
          | some (inner, after) =>
            let here ← get
            set { here with rest := inner, held := none }
            let body ← readBody fuel
            let line := here.line + ((cs.take (cs.length - after.length)).filter (· == '\n')).length
            modify fun s => { s with rest := after, line, held := none }
            return .output body place.isQuoted :: (← readPieces place depth fuel)
        | _ => do
          skipChars 1
          put (String.singleton c) place.isQuoted

/-- Reads what follows a dollar sign; none if it stands for itself. -/
def readDollar (place : Place) : Nat → Read (Option Piece)
  | 0 => return none
  | fuel + 1 => do
    let quoted := place.isQuoted
    match ← rest with
    | '(' :: '(' :: _ => do
      skipChars 2
      return some (.sum (← readPieces .sum 0 fuel) quoted)
    | '(' :: _ => do
      skipChars 1
      let held := (← get).held
      modify fun s => { s with held := none }
      let body ← readList 2 fuel
      match ← readToken fuel with
      | .op ")" => modify fun s => { s with held }
      | t => unexpected true t ")"
      return some (.output body quoted)
    | '\x7b' :: cs => do
      let inner : Place := if quoted then .quotedBraces else .braces
      let lengthOf := cs.head? == some '#' &&
        !(["\x7d", ":", "-", "=", "+", "?", "%", "#"].any fun m => m.toList.isPrefixOf (cs.drop 1))
      let name := paramName (if lengthOf then cs.drop 1 else cs)
      skipChars (1 + (if lengthOf then 1 else 0) + name.length)
      let name := String.ofList name
      match ← rest with
      | '\x7d' :: _ => do
        skipChars 1
        return some (.param name
          (if name.isEmpty then .bad else if lengthOf then .length else .plain) quoted)
      | [] => do
        modify fun s => { s with line := s.line - 1 }
        refuse "Syntax error: Missing '\x7d'"
      | after =>
        match changeMark? after with
        | some (n, change) => do
          if lengthOf || name.isEmpty then
            let _ ← readPieces inner 0 fuel
            return some (.param name .bad quoted)
          skipChars n
          return some (.param name (change (← readPieces inner 0 fuel)) quoted)
        | none => do
          let _ ← readPieces inner 0 fuel
          return some (.param name .bad quoted)
    | cs =>
      let name := match cs with
        | c :: _ => if c.isDigit then [c] else paramName cs
        | [] => []
      if name.isEmpty then return none
      else do
        skipChars name.length
        return some (.param (String.ofList name) .plain quoted)

/-- Reads the next token. -/
def readToken : Nat → Read Token
  | 0 => return .eof
  | fuel + 1 => do
    match (← get).held with
    | some t => do
      modify fun s => { s with held := none }
      return t
    | none => do
      skipBlanks ((← rest).length + 1)
      match ← rest with
      | [] => return .eof
      | '\n' :: _ => do
        skipChars 1
        return .newline
      | cs =>
        match redirections.find? fun o => o.toList.isPrefixOf cs with
        | some o => do
          skipChars o.length
          return .redirect none o
        | none =>
          match operators.find? fun o => o.toList.isPrefixOf cs with
          | some o => do
            skipChars o.length
            return .op o
          | none => do
            let line := (← get).line
            match cs with
            | d :: r :: _ =>
              -- a digit right before a redirection is its channel
              if d.isDigit && (r == '<' || r == '>') then do
                let o := (redirections.find? fun o => o.toList.isPrefixOf (cs.drop 1)).getD ">"
                skipChars (1 + o.length)
                return .redirect (some (d.toNat - 48)) o
              else return .word line (← readPieces .plain 0 fuel)
            | _ => return .word line (← readPieces .plain 0 fuel)

/-- Reads the documents that were announced. -/
def readDocuments : Nat → Read Unit
  | 0 => return ()
  | fuel + 1 => do
    let s ← get
    match s.announced with
    | [] => return ()
    | a :: more => do
      let (text, after) := documentLines a.mark.toList a.stripsTabs (s.rest.length + 1) s.rest
      let line := s.line + ((s.rest.take (s.rest.length - after.length)).filter (· == '\n')).length
      if a.isLiteral then
        set { s with
          rest := after, line, announced := more
          documents := (a.number, [.text (String.ofList text) true]) :: s.documents }
      else do
        set { s with rest := text, announced := [] }
        let body ← readPieces .document 0 fuel
        modify fun t => { t with
          rest := after, line, announced := more, held := s.held
          documents := (a.number, body) :: t.documents }
      readDocuments fuel

/-- Looks at the next token. -/
def peekToken : Nat → Read Token
  | 0 => return .eof
  | fuel + 1 => do
    let t ← readToken fuel
    modify fun s => { s with held := some t }
    return t

/-- Skips line ends. -/
def skipLines : Nat → Read Unit
  | 0 => return ()
  | fuel + 1 => do
    match ← peekToken fuel with
    | .newline => do
      let _ ← readToken fuel
      readDocuments fuel
      skipLines fuel
    | _ => return ()

/-- Takes a keyword; line ends before it are skipped if `lines` is set. -/
def expectWord (word : String) (lines : Bool) : Nat → Read Unit
  | 0 => return ()
  | fuel + 1 => do
    if lines then skipLines fuel
    match ← readToken fuel with
    | .word l w => if bareText w == some word then return () else unexpected true (.word l w) word
    | t => unexpected true t word

/-- Reads a list of commands. In mode 1 it ends with the line; in mode 2 it may be empty. -/
def readList (mode : Nat) : Nat → Read (List Command)
  | 0 => return []
  | fuel + 1 => do
    if mode != 1 then skipLines fuel
    match ← peekToken fuel with
    | .newline => do
      let _ ← readToken fuel
      readDocuments fuel
      return []
    | .eof => do
      readDocuments fuel
      return []
    | t =>
      if mode == 2 && endsList t then return []
      else do
        let c ← readChain fuel
        match ← peekToken fuel with
        | .op "&" => do
          let _ ← readToken fuel
          return .background c :: (← readList (if mode == 1 then 1 else 2) fuel)
        | .op ";" => do
          let _ ← readToken fuel
          return c :: (← readList (if mode == 1 then 1 else 2) fuel)
        | .newline =>
          if mode == 1 then do
            let _ ← readToken fuel
            readDocuments fuel
            return [c]
          else return c :: (← readList 2 fuel)
        | .eof => do
          readDocuments fuel
          return [c]
        | t => if mode == 1 then unexpected true t else return [c]

/-- Reads commands joined by what their success decides. -/
def readChain : Nat → Read Command
  | 0 => refuse "Syntax error"
  | fuel + 1 => do
    let c ← readPipeline fuel
    chainOn c fuel

/-- Goes on with a joined command. -/
def chainOn (c : Command) : Nat → Read Command
  | 0 => return c
  | fuel + 1 => do
    match ← peekToken fuel with
    | .op "&&" => do
      let _ ← readToken fuel
      skipLines fuel
      chainOn (.both c (← readPipeline fuel)) fuel
    | .op "||" => do
      let _ ← readToken fuel
      skipLines fuel
      chainOn (.either c (← readPipeline fuel)) fuel
    | _ => return c

/-- Reads a pipeline. -/
def readPipeline : Nat → Read Command
  | 0 => refuse "Syntax error"
  | fuel + 1 => do
    match ← peekToken fuel with
    | .word _ w =>
      if bareText w == some "!" then do
        let _ ← readToken fuel
        match ← peekToken fuel with
        | .word _ again => if bareText again == some "!" then refuse "Syntax error: \"!\" unexpected"
        | _ => pure ()
        return .pipeline true (← readStages fuel)
      else plainPipeline fuel
    | _ => plainPipeline fuel

/-- Reads a pipeline that is not negated; one stage is the command itself. -/
def plainPipeline : Nat → Read Command
  | 0 => refuse "Syntax error"
  | fuel + 1 => do
    match ← readStages fuel with
    | [c] => return c
    | cs => return .pipeline false cs

/-- Reads the stages of a pipeline. -/
def readStages : Nat → Read (List Command)
  | 0 => refuse "Syntax error"
  | fuel + 1 => do
    let c ← readCommand fuel
    match ← peekToken fuel with
    | .op "|" => do
      let _ ← readToken fuel
      skipLines fuel
      return c :: (← readStages fuel)
    | _ => return [c]

/-- Reads redirections. -/
def readRedirects : Nat → Read (List Redirect)
  | 0 => return []
  | fuel + 1 => do
    match ← peekToken fuel with
    | .redirect channel o => do
      let _ ← readToken fuel
      let r ← readTarget channel o fuel
      return r :: (← readRedirects fuel)
    | _ => return []

/-- Reads what a redirection leads to. -/
def readTarget (channel : Option Nat) (o : String) : Nat → Read Redirect
  | 0 => refuse "Syntax error"
  | fuel + 1 => do
    match ← readToken fuel with
    | .word _ w =>
      match o with
      | "<" => return .file (channel.getD 0) .input w
      | "<>" => return .file (channel.getD 0) .both w
      | ">>" => return .file (channel.getD 1) .appended w
      | ">|" => return .file (channel.getD 1) .forced w
      | "<&" => return .copy (channel.getD 0) w
      | ">&" => return .copy (channel.getD 1) w
      | "<<" => return .document (channel.getD 0) (← announce w false)
      | "<<-" => return .document (channel.getD 0) (← announce w true)
      | _ => return .file (channel.getD 1) .output w
    | t => unexpected false t

/-- Reads one command. -/
def readCommand : Nat → Read Command
  | 0 => refuse "Syntax error"
  | fuel + 1 => do
    let line := (← get).line
    let t ← peekToken fuel
    match t with
    | .op "(" => do
      let _ ← readToken fuel
      let body ← readList 0 fuel
      match ← readToken fuel with
      | .op ")" => redirectedBy line (.subshell body) fuel
      | t => unexpected true t ")"
    | .word _ w =>
      match (bareText w).getD "" with
      | "\x7b" => do
        let _ ← readToken fuel
        let body ← readList 0 fuel
        expectWord "\x7d" false fuel
        redirectedBy line (.group body) fuel
      | "if" => do
        let _ ← readToken fuel
        redirectedBy line (← readCond fuel) fuel
      | "while" => readLoop true fuel
      | "until" => readLoop false fuel
      | "for" => readEach fuel
      | "case" => readChoice fuel
      | s =>
        if closers.contains s then do
          let _ ← readToken fuel
          unexpected true t
        else readSimple fuel
    | .redirect _ _ => readSimple fuel
    | t => do
      let _ ← readToken fuel
      unexpected true t

/-- Puts the redirections after a compound command on it. -/
def redirectedBy (line : Nat) (c : Command) : Nat → Read Command
  | 0 => return c
  | fuel + 1 => do
    match ← readRedirects fuel with
    | [] => return c
    | rs => return .redirected line c rs

/-- Reads a condition after its first word. -/
def readCond : Nat → Read Command
  | 0 => refuse "Syntax error"
  | fuel + 1 => do
    let test ← readList 0 fuel
    expectWord "then" false fuel
    let yes ← readList 0 fuel
    match ← readToken fuel with
    | .word l w =>
      match bareText w with
      | some "elif" => return .cond test yes [← readCond fuel]
      | some "else" => do
        let no ← readList 0 fuel
        expectWord "fi" false fuel
        return .cond test yes no
      | some "fi" => return .cond test yes []
      | _ => unexpected true (.word l w) "fi"
    | t => unexpected true t "fi"

/-- Reads a loop. -/
def readLoop (goesOn : Bool) : Nat → Read Command
  | 0 => refuse "Syntax error"
  | fuel + 1 => do
    let line := (← get).line
    let _ ← readToken fuel
    let test ← readList 0 fuel
    expectWord "do" false fuel
    let body ← readList 0 fuel
    expectWord "done" false fuel
    redirectedBy line (.loop goesOn test body) fuel

/-- Reads a loop over words. -/
def readEach : Nat → Read Command
  | 0 => refuse "Syntax error"
  | fuel + 1 => do
    let line := (← get).line
    let _ ← readToken fuel
    match ← readToken fuel with
    | .word _ w =>
      match bareText w with
      | none => refuse "Syntax error: Bad for loop variable"
      | some name => do
        if !isNameText name then refuse "Syntax error: Bad for loop variable"
        skipLines fuel
        let items ← match ← peekToken fuel with
          | .word _ w =>
            if bareText w == some "in" then do
              let _ ← readToken fuel
              let ws ← readItems fuel
              match ← readToken fuel with
              | .newline | .op ";" => pure (some ws)
              | t => unexpected false t
            else pure none
          | .op ";" => do
            let _ ← readToken fuel
            pure none
          | _ => pure none
        expectWord "do" true fuel
        let body ← readList 0 fuel
        expectWord "done" false fuel
        redirectedBy line (.each name items body) fuel
    | _ => refuse "Syntax error: Bad for loop variable"

/-- Reads words up to something else. -/
def readItems : Nat → Read (List Word)
  | 0 => return []
  | fuel + 1 => do
    match ← peekToken fuel with
    | .word _ w => do
      let _ ← readToken fuel
      return w :: (← readItems fuel)
    | _ => return []

/-- Reads a choice. -/
def readChoice : Nat → Read Command
  | 0 => refuse "Syntax error"
  | fuel + 1 => do
    let line := (← get).line
    let _ ← readToken fuel
    match ← readToken fuel with
    | .word _ subject => do
      expectWord "in" true fuel
      let cases ← readCases fuel
      redirectedBy line (.choice subject cases) fuel
    | t => unexpected false t "word"

/-- Reads the cases of a choice and the word that ends them. -/
def readCases : Nat → Read (List (List Word × List Command))
  | 0 => return []
  | fuel + 1 => do
    skipLines fuel
    let t ← readToken fuel
    let t ← match t with
      | .op "(" => readToken fuel
      | t => pure t
    match t with
    | .word l w =>
      if bareText w == some "esac" then return []
      else do
        let patterns ← readPatterns (.word l w) fuel
        let body ← readList 2 fuel
        skipLines fuel
        match ← readToken fuel with
        | .op ";;" => return (patterns, body) :: (← readCases fuel)
        | .word l w =>
          if bareText w == some "esac" then return [(patterns, body)]
          else unexpected true (.word l w) ";;"
        | t => unexpected true t ";;"
    | t => do
      let _ ← readPatterns t fuel
      return []

/-- Reads the patterns of a case, the first of which was read, and the bracket after them. -/
def readPatterns (t : Token) : Nat → Read (List Word)
  | 0 => return []
  | fuel + 1 => do
    let w := match t with
      | .word _ w => w
      | _ => []
    match ← readToken fuel with
    | .op "|" => return w :: (← readPatterns (← readToken fuel) fuel)
    | .op ")" => return [w]
    | t => unexpected false t ")"

/-- Reads a simple command, or the definition of a function. -/
def readSimple : Nat → Read Command
  | 0 => refuse "Syntax error"
  | fuel + 1 => do
    let first ← peekToken fuel
    let here := (← get).line
    let line := match first with
      | .word l _ => l
      | _ => here
    let (assigns, words, redirects) ← readParts [] fuel
    match words, ← peekToken fuel with
    | [w], .op "(" =>
      if assigns.isEmpty && redirects.isEmpty then do
        let _ ← readToken fuel
        match ← readToken fuel with
        | .op ")" => do
          let name := (bareText w).getD ""
          if !isNameText name then refuse "Syntax error: Bad function name"
          skipLines fuel
          return .define name (← readCommand fuel)
        | t => unexpected false t ")"
      else unexpected true (.op "(")
    | _, _ => return .simple line assigns words redirects

/-- Reads the parts of a simple command: assignments, words and redirections. `seen` are the words
    read. -/
def readParts (seen : List Word) : Nat → Read (List (String × Word) × List Word × List Redirect)
  | 0 => return ([], [], [])
  | fuel + 1 => do
    match ← peekToken fuel with
    | .word _ w => do
      let _ ← readToken fuel
      match if seen.isEmpty then assignment? w else none with
      | some a => do
        let (as, ws, rs) ← readParts seen fuel
        return (a :: as, ws, rs)
      | none => do
        let (as, ws, rs) ← readParts (w :: seen) fuel
        return (as, w :: ws, rs)
    | .redirect channel o => do
      let _ ← readToken fuel
      let r ← readTarget channel o fuel
      let (as, ws, rs) ← readParts seen fuel
      return (as, ws, r :: rs)
    | _ => return ([], [], [])

/-- Reads all commands of a text. -/
def readBody : Nat → Read (List Command)
  | 0 => return []
  | fuel + 1 => do
    let body ← readList 2 fuel
    match ← peekToken fuel with
    | .eof => return body
    | t => unexpected true t

end

/-- Reads the commands of the next line; none at the end of the script. -/
def Source.nextLine (s : Source) : Except ReadFault (Option (List Command × Source)) :=
  let fuel := 20 * s.rest.length + 100
  match (peekToken fuel).run s with
  | .error f => .error f
  | .ok (.eof, _) => .ok none
  | .ok (_, s) =>
    match (readList 1 fuel).run s with
    | .ok (cs, s) => .ok (some (cs, s))
    | .error f => .error f

end PineLang.Shell
