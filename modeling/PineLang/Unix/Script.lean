/-!
# Shell scripts

The language that tools are written in: words with quotes and expansions, simple commands with
assignments and redirections, pipelines, conditions, loops, choices and functions.
-/
namespace PineLang.Shell

/-- How a file is opened for a redirection. Output that is `forced` goes over a file that exists even
    if such files are to be kept. -/
inductive OpenMode where
  | input | output | forced | appended | both
  deriving DecidableEq, Repr

mutual

/-- A piece of a word. What is quoted is neither split nor a pattern. -/
inductive Piece where
  | text (s : String) (isQuoted : Bool)
  | param (name : String) (change : Change) (isQuoted : Bool)
  | output (body : List Command) (isQuoted : Bool)
  | sum (expr : List Piece) (isQuoted : Bool)

/-- What is done with the value of a parameter. Where `orEmpty` is set, an empty value counts as
    none. -/
inductive Change where
  | plain
  | length
  | fallback (orEmpty : Bool) (word : List Piece)
  | assign (orEmpty : Bool) (word : List Piece)
  | alternative (orEmpty : Bool) (word : List Piece)
  | require (orEmpty : Bool) (word : List Piece)
  | trim (atEnd longest : Bool) (pattern : List Piece)
  | bad

/-- A redirection of a channel. The text of a document that stands in the script is found by its
    number. -/
inductive Redirect where
  | file (channel : Nat) (mode : OpenMode) (path : List Piece)
  | copy (channel : Nat) (source : List Piece)
  | document (channel : Nat) (number : Nat)

/-- A command. -/
inductive Command where
  | simple (line : Nat) (assigns : List (String × List Piece)) (words : List (List Piece))
      (redirects : List Redirect)
  | pipeline (negated : Bool) (stages : List Command)
  | both (first second : Command)
  | either (first second : Command)
  | background (c : Command)
  | cond (test yes no : List Command)
  | each (name : String) (items : Option (List (List Piece))) (body : List Command)
  | loop (goesOn : Bool) (test body : List Command)
  | choice (subject : List Piece) (cases : List (List (List Piece) × List Command))
  | subshell (body : List Command)
  | group (body : List Command)
  | redirected (line : Nat) (c : Command) (redirects : List Redirect)
  | define (name : String) (body : Command)

end

/-- A word: its pieces, one after the other. -/
abbrev Word := List Piece

/-- The text of a word that has no quotes and no expansions. -/
def bareText (w : Word) : Option String :=
  w.foldlM (fun s p => match p with
    | .text t false => some (s ++ t)
    | _ => none) ""

/-- A character of a name. -/
def isName (c : Char) : Bool := c.isAlphanum || c == '_'

/-- The text can be the name of a parameter. -/
def isNameText (s : String) : Bool :=
  match s.toList with
  | [] => false
  | c :: cs => (c.isAlpha || c == '_') && cs.all isName

end PineLang.Shell
