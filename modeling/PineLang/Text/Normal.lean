import PineLang.Unicode.Canonical

/-!
# Composed normal form

How one code point decomposes, which pairs compose, and the combining class that orders marks. Long
runs of marks are parted, a string is decomposed canonically, the marks after each starter are put in
the order of their combining classes, and what composes is composed again (NFC).
-/
namespace PineLang.Text

/-! ## Hangul -/

/-- The first precomposed syllable. -/
def hangulBase : Nat := 0xAC00

/-- The precomposed syllables. -/
def isHangulSyllable (n : Nat) : Bool := hangulBase ≤ n && n < hangulBase + 11172

/-- The leading consonant, vowel and optional trailing consonant of a syllable. -/
def hangulParts (n : Nat) : List Nat :=
  let i := n - hangulBase
  let parts := [0x1100 + i / 588, 0x1161 + i % 588 / 28]
  if i % 28 == 0 then parts else parts ++ [0x11A7 + i % 28]

/-- The syllable of a leading consonant and a vowel, or of an open syllable and a trailing
    consonant. -/
def hangulCompose? (a b : Nat) : Option Nat :=
  if 0x1100 ≤ a && a < 0x1113 && 0x1161 ≤ b && b < 0x1176 then
    some (hangulBase + (a - 0x1100) * 588 + (b - 0x1161) * 28)
  else if isHangulSyllable a && (a - hangulBase) % 28 == 0 && 0x11A7 < b && b < 0x11C3 then
    some (a + (b - 0x11A7))
  else none

/-! ## Mappings -/

/-- One step of canonical decomposition. -/
def mapping? (n : Nat) : Option (List Nat) :=
  if n < 0xC0 then none
  else if isHangulSyllable n then some (hangulParts n)
  else
    let single := if n < 0x10000 then basicSingletons else ideographSingletons
    match single.find? (·.1 == n) with
    | some (_, a) => some [a]
    | none =>
      let pairs := if n < 0x1E00 then scriptPairs else extendedPairs
      (pairs.find? (·.1 == n)).map fun (_, a, b) => [a, b]

/-- The longest chain of mappings. -/
def mappingDepth : Nat := 5

/-- The canonical decomposition of a code point, with at most `depth` steps. -/
@[grind =] def decomposeWithin : Nat → Nat → List Nat
  | 0, n => [n]
  | depth + 1, n =>
    match mapping? n with
    | none => [n]
    | some parts => parts.flatMap (decomposeWithin depth)

/-- The full canonical decomposition of a code point. -/
def decompose (n : Nat) : List Nat := decomposeWithin mappingDepth n

/-- The canonical combining class: zero for a starter. -/
def combiningClass (n : Nat) : Nat :=
  if n < 0x300 then 0
  else match combiningClasses.find? fun (a, b, _) => a ≤ n && n ≤ b with
    | some (_, _, k) => k
    | none => 0

/-- The code point a pair composes to. -/
def compose? (a b : Nat) : Option Nat :=
  match hangulCompose? a b with
  | some n => some n
  | none =>
    match scriptPairs.find? (·.2 == (a, b)) <|> extendedPairs.find? (·.2 == (a, b)) with
    | some (n, _, _) => if compositionExclusions.contains n then none else some n
    | none => none

/-! ## Stream-safe text

At most thirty characters that attach to the one before them follow one another: where there
would be more, a grapheme joiner is put between, which attaches to nothing. So a normaliser can
work with a buffer of fixed size. -/

/-- The joiner that parts a run of attaching characters. -/
def graphemeJoiner : Nat := 0x34F

/-- The longest run of attaching characters. -/
def maxAttached : Nat := 30

/-- `n` is the second of a pair that composes. -/
def composesBackward (n : Nat) : Bool :=
  (0x1161 ≤ n && n ≤ 0x1175) || (0x11A8 ≤ n && n ≤ 0x11C2)
    || scriptPairs.any (fun (c, _, b) => b == n && !compositionExclusions.contains c)
    || extendedPairs.any (fun (c, _, b) => b == n && !compositionExclusions.contains c)

/-- `n` attaches to the character before it: it is a mark with a combining class, or composes
    backward. -/
def attaches (n : Nat) : Bool := 0x300 ≤ n && (combiningClass n != 0 || composesBackward n)

/-- The code points whose compatibility decomposition begins or ends with another number of
    attaching characters than the canonical one: a closed range, then the two numbers. -/
def compatibilityAttached : Array (Nat × Nat × Nat × Nat) := #[
  (0xA8, 0xA8, 0, 1), (0xAF, 0xAF, 0, 1), (0xB4, 0xB4, 0, 1), (0xB8, 0xB8, 0, 1),
  (0x1C4, 0x1C6, 0, 1), (0x2D8, 0x2DD, 0, 1), (0x37A, 0x37A, 0, 1), (0x384, 0x384, 0, 1),
  (0x385, 0x385, 0, 2), (0xF77, 0xF77, 0, 2), (0xF79, 0xF79, 0, 2), (0x1FBD, 0x1FBD, 0, 1),
  (0x1FBF, 0x1FC0, 0, 1), (0x1FC1, 0x1FC1, 0, 2), (0x1FCD, 0x1FCF, 0, 2), (0x1FDD, 0x1FDF, 0, 2),
  (0x1FED, 0x1FEE, 0, 2), (0x1FFD, 0x1FFE, 0, 1), (0x2017, 0x2017, 0, 1), (0x203E, 0x203E, 0, 1),
  (0x309B, 0x309C, 0, 1), (0x3133, 0x3133, 1, 1), (0x3135, 0x3136, 1, 1), (0x313A, 0x313F, 1, 1),
  (0x314F, 0x3163, 1, 1), (0x326E, 0x327E, 0, 1), (0x3304, 0x3304, 0, 1), (0x3307, 0x3307, 0, 1),
  (0x3310, 0x3310, 0, 1), (0x331E, 0x331E, 0, 1), (0x3321, 0x3321, 0, 1), (0x3332, 0x3332, 0, 1),
  (0x333B, 0x333B, 0, 1), (0x3340, 0x3340, 0, 1), (0x334B, 0x334B, 0, 1), (0x334E, 0x334E, 0, 1),
  (0xFBA4, 0xFBA5, 0, 1), (0xFBB0, 0xFBB1, 0, 1), (0xFC5B, 0xFC5D, 0, 1), (0xFC5E, 0xFC63, 0, 2),
  (0xFC90, 0xFC90, 0, 1), (0xFCD9, 0xFCD9, 0, 1), (0xFCF2, 0xFCF4, 0, 2), (0xFD3C, 0xFD3D, 0, 1),
  (0xFE49, 0xFE4C, 0, 1), (0xFE70, 0xFE72, 0, 1), (0xFE74, 0xFE74, 0, 1), (0xFE76, 0xFE7F, 0, 1),
  (0xFE81, 0xFE8C, 0, 1), (0xFEF5, 0xFEFA, 0, 1), (0xFF9E, 0xFF9F, 1, 1), (0xFFA3, 0xFFA3, 1, 1),
  (0xFFA5, 0xFFA6, 1, 1), (0xFFAA, 0xFFAF, 1, 1), (0xFFC2, 0xFFC7, 1, 1), (0xFFCA, 0xFFCF, 1, 1),
  (0xFFD2, 0xFFD7, 1, 1), (0xFFDA, 0xFFDC, 1, 1), (0xFFE3, 0xFFE3, 0, 1), (0x1F213, 0x1F213, 0, 1)]

/-- How many attaching characters the full decomposition of `n` begins with, and how many it ends
    with. -/
def attachedEnds (n : Nat) : Nat × Nat :=
  match compatibilityAttached.find? fun (a, b, _) => a ≤ n && n ≤ b with
  | some (_, _, leading, trailing) => (leading, trailing)
  | none =>
    let parts := decompose n
    ((parts.takeWhile attaches).length, (parts.reverse.takeWhile attaches).length)

/-- Parts long runs of attaching characters by joiners. `attached` is the length of the run so
    far; a character that begins with no attaching one starts a run anew. -/
def partRuns (attached : Nat) : List Nat → List Nat
  | [] => []
  | n :: rest =>
    let (leading, trailing) := attachedEnds n
    if leading == 0 then n :: partRuns trailing rest
    else if attached + leading > maxAttached then graphemeJoiner :: n :: partRuns leading rest
    else n :: partRuns (attached + leading) rest

/-! ## Order and composition -/

/-- Puts a mark behind the marks of no higher class. -/
def insertMark (m : Nat × Nat) : List (Nat × Nat) → List (Nat × Nat)
  | [] => [m]
  | x :: xs => if m.2 < x.2 then m :: x :: xs else x :: insertMark m xs

/-- Sorts each run of marks by class, keeping the order within a class. `run` holds the marks of
    the run being read, already sorted. -/
@[grind =] def orderMarks (run : List (Nat × Nat)) : List (Nat × Nat) → List (Nat × Nat)
  | [] => run
  | x :: xs =>
    if x.2 == 0 then run ++ x :: orderMarks [] xs else orderMarks (insertMark x run) xs

/-- Composes marks into the starter before them. `lastClass` is the class of the last mark that
    stayed behind, and `left` holds those marks in reverse. -/
@[grind =] def composeFrom (starter : Nat) (left : List Nat) (lastClass : Option Nat) :
    List (Nat × Nat) → List Nat
  | [] => starter :: left.reverse
  | (n, k) :: rest =>
    let blocked := match lastClass with
      | none => false
      | some last => last ≥ k
    match if blocked then none else compose? starter n with
    | some composite => composeFrom composite left lastClass rest
    | none =>
      if k == 0 then starter :: left.reverse ++ composeFrom n [] none rest
      else composeFrom starter (n :: left) (some k) rest

/-- Composes a canonically ordered sequence. -/
def composeAll : List (Nat × Nat) → List Nat
  | [] => []
  | (n, k) :: rest =>
    if k == 0 then composeFrom n [] none rest else n :: composeAll rest

/-- The composed normal form of a string, made stream-safe. -/
def nfc (s : String) : String :=
  let parts := (partRuns 0 (s.toList.map Char.toNat)).flatMap decompose
  let ordered := orderMarks [] (parts.map fun n => (n, combiningClass n))
  String.ofList ((composeAll ordered).map Char.ofNat)

end PineLang.Text
