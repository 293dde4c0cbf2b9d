/-!
# Patterns

A pattern of the shell: a star matches any text, a question mark any character, and brackets one
character of a set. A quoted character only matches itself.
-/
namespace PineLang.Shell

/-- A part of a pattern. -/
inductive Atom where
  | char (c : Char)
  | one
  | many
  | set (negated : Bool) (members : List (Char × Char)) (classes : List String)
  deriving DecidableEq, Repr

/-- A character belongs to a named class. -/
def inClass (c : Char) : String → Bool
  | "alpha" => c.isAlpha
  | "digit" => c.isDigit
  | "alnum" => c.isAlphanum
  | "upper" => c.isUpper
  | "lower" => c.isLower
  | "space" => c.isWhitespace || c.toNat == 11 || c.toNat == 12
  | "blank" => c == ' ' || c == '\t'
  | "xdigit" => c.isDigit || ('a' ≤ c && c ≤ 'f') || ('A' ≤ c && c ≤ 'F')
  | "punct" => 0x21 ≤ c.toNat && c.toNat ≤ 0x7E && !c.isAlphanum
  | "print" => 0x20 ≤ c.toNat && c.toNat ≤ 0x7E
  | "graph" => 0x21 ≤ c.toNat && c.toNat ≤ 0x7E
  | "cntrl" => c.toNat < 0x20 || c.toNat == 0x7F
  | _ => false

/-- A part of a pattern matches a character. -/
def Atom.accepts (c : Char) : Atom → Bool
  | char d => c == d
  | one | many => true
  | set negated members classes =>
    (members.any (fun (a, b) => a ≤ c && c ≤ b) || classes.any (inClass c)) != negated

/-- Reads the members of a set up to its bracket, of at most `fuel` parts; none if it is not
    closed. A bracket right at the start is a member. -/
def readMembers (first : Bool) (members : List (Char × Char)) (classes : List String) :
    Nat → List (Char × Bool) → Option (List (Char × Char) × List String × List (Char × Bool))
  | 0, _ => none
  | fuel + 1, cs =>
    match cs with
    | [] => none
    | (']', false) :: rest =>
      if first then readMembers false ((']', ']') :: members) classes fuel rest
      else some (members, classes, rest)
    | ('[', false) :: (':', false) :: rest =>
      let name := (rest.takeWhile fun x => x.1 != ':').map (·.1)
      match rest.drop name.length with
      | (':', _) :: (']', _) :: rest =>
        readMembers false members (String.ofList name :: classes) fuel rest
      | _ => readMembers false (('[', '[') :: members) classes fuel ((':', false) :: rest)
    | (a, _) :: ('-', false) :: (b, q) :: rest =>
      if b == ']' && !q then readMembers false ((a, a) :: members) classes fuel (('-', false) :: (b, q) :: rest)
      else readMembers false ((a, b) :: members) classes fuel rest
    | (a, _) :: rest => readMembers false ((a, a) :: members) classes fuel rest

/-- The pattern of characters, each of which may be quoted. -/
def patternOf : Nat → List (Char × Bool) → List Atom
  | 0, _ => []
  | fuel + 1, cs =>
    match cs with
    | [] => []
    | ('*', false) :: rest => .many :: patternOf fuel rest
    | ('?', false) :: rest => .one :: patternOf fuel rest
    | ('[', false) :: rest =>
      let (negated, inner) := match rest with
        | ('!', false) :: r | ('^', false) :: r => (true, r)
        | r => (false, r)
      match readMembers true [] [] (inner.length + 1) inner with
      | some (members, classes, after) => .set negated members classes :: patternOf fuel after
      | none => .char '[' :: patternOf fuel rest
    | ('\\', false) :: (c, _) :: rest => .char c :: patternOf fuel rest
    | (c, _) :: rest => .char c :: patternOf fuel rest

/-- The pattern of characters. -/
def pattern (cs : List (Char × Bool)) : List Atom := patternOf (cs.length + 1) cs

/-- The pattern has a part that is no character. -/
def isOpen (p : List Atom) : Bool :=
  p.any fun a => match a with
    | .char _ => false
    | _ => true

/-- A pattern matches a text as a whole. -/
def matchesAll : List Atom → List Char → Bool
  | [], [] => true
  | [], _ :: _ => false
  | .many :: ps, [] => matchesAll ps []
  | .many :: ps, c :: cs => matchesAll ps (c :: cs) || matchesAll (.many :: ps) cs
  | _ :: _, [] => false
  | p :: ps, c :: cs => p.accepts c && matchesAll ps cs
termination_by ps cs => ps.length + cs.length

/-- Takes a match off the start of a text, or off its end: the shortest one or the longest. -/
def trimMatch (atEnd longest : Bool) (p : List Atom) (cs : List Char) : List Char :=
  let cuts := List.range (cs.length + 1)
  let fits (n : Nat) : Bool :=
    if atEnd then matchesAll p (cs.drop (cs.length - n)) else matchesAll p (cs.take n)
  match (if longest then cuts.reverse else cuts).find? fits with
  | some n => if atEnd then cs.take (cs.length - n) else cs.drop n
  | none => cs

end PineLang.Shell
