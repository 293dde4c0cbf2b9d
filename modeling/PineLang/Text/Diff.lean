import PineLang.Text.Utf8

/-!
# Line differences

Two texts are compared line by line: the longest common block is found first, then the longest
before it and after it. The differences are shown in the unified form, with three lines of context.
-/
namespace PineLang.Text.Diff

/-- A line, with its end. -/
abbrev Line := Bytes

/-- The lines of a text, each with its end; the last line gets one too. -/
def lines (bs : Bytes) : List Line := (bs.splitOn 10).map (· ++ [10])

/-! ## Common blocks -/

/-- Lines that two texts share: where they start in each, and how many they are. -/
structure Block where
  left : Nat
  right : Nat
  size : Nat
  deriving DecidableEq, Repr

/-- Lines so frequent in a long text that no block is looked for at them. -/
def frequent (right : List Line) : List Line :=
  let n := right.length
  if n < 200 then [] else right.eraseDups.filter fun l => right.count l > n / 100 + 1

/-- For each line on the right, the length of the common run that ends there and at `line`, where
    `above` has those that end at the line before. -/
def runs (skip : List Line) (right : List Line) (line : Line) (above : List Nat) : List Nat :=
  List.zipWith (fun r n => if r == line && !skip.contains r then n + 1 else 0) right (0 :: above)

/-- The better of a block and the runs that end at line `i` on the left; a run must be longer to be
    better. -/
def bestOf (i : Nat) (best : Block) (row : List Nat) : Block :=
  (row.foldl (fun (acc : Block × Nat) k =>
    let j := acc.2
    (if k > acc.1.size then ⟨i + 1 - k, j + 1 - k, k⟩ else acc.1, j + 1)) (best, 0)).1

/-- The longest common block of lines, the first of those of equal length. -/
def longestFrom (skip right : List Line) (i : Nat) (best : Block) (above : List Nat) :
    List Line → Block
  | [] => best
  | l :: rest =>
    let row := runs skip right l above
    longestFrom skip right (i + 1) (bestOf i best row) row rest

/-- How many lines two lists have in common at their start. -/
def commonStart : List Line → List Line → Nat
  | a :: as, b :: bs => if a == b then commonStart as bs + 1 else 0
  | _, _ => 0

/-- A block with the equal lines around it. -/
def Block.grow (b : Block) (left right : List Line) : Block :=
  let before := commonStart (left.take b.left).reverse (right.take b.right).reverse
  let after := commonStart (left.drop (b.left + b.size)) (right.drop (b.right + b.size))
  ⟨b.left - before, b.right - before, before + b.size + after⟩

/-- The longest common block of two texts. -/
def longest (skip left right : List Line) : Block :=
  (longestFrom skip right 0 ⟨0, 0, 0⟩ (right.map fun _ => 0) left).grow left right

/-- All common blocks, where the texts start at the given lines. Each step is at shorter texts, so
    as much fuel as there are lines on the left is enough. -/
def blocks (skip : List Line) : Nat → Nat → Nat → List Line → List Line → List Block
  | 0, _, _, _, _ => []
  | fuel + 1, i, j, left, right =>
    let b := longest skip left right
    if b.size = 0 then []
    else
      blocks skip fuel i j (left.take b.left) (right.take b.right) ++
        ⟨i + b.left, j + b.right, b.size⟩ ::
          blocks skip fuel (i + b.left + b.size) (j + b.right + b.size)
            (left.drop (b.left + b.size)) (right.drop (b.right + b.size))

/-- Joins blocks that follow each other without a gap. -/
def joined : List Block → List Block
  | a :: b :: rest =>
    if a.left + a.size = b.left ∧ a.right + a.size = b.right then
      joined (⟨a.left, a.right, a.size + b.size⟩ :: rest)
    else a :: joined (b :: rest)
  | bs => bs
  termination_by bs => bs.length

/-! ## Edits -/

/-- A part of both texts that is the same or differs, by the lines it covers. -/
structure Edit where
  isSame : Bool
  left : Nat
  leftStop : Nat
  right : Nat
  rightStop : Nat
  deriving DecidableEq, Repr

/-- The edits between blocks, from the given lines on. -/
def editsFrom (i j : Nat) : List Block → List Edit
  | [] => []
  | b :: rest =>
    (if i < b.left ∨ j < b.right then [⟨false, i, b.left, j, b.right⟩] else []) ++
      (if b.size = 0 then []
        else [⟨true, b.left, b.left + b.size, b.right, b.right + b.size⟩]) ++
      editsFrom (b.left + b.size) (b.right + b.size) rest

/-- The edits that make the right text of the left one. -/
def edits (left right : List Line) : List Edit :=
  let bs := blocks (frequent right) (left.length + 1) 0 0 left right
  editsFrom 0 0 (joined bs ++ [⟨left.length, right.length, 0⟩])

/-- How many unchanged lines are shown around a change. -/
def context : Nat := 3

/-- The start of an unchanged part. -/
def Edit.start (e : Edit) : Edit :=
  { e with leftStop := min e.leftStop (e.left + context), rightStop := min e.rightStop (e.right + context) }

/-- The end of an unchanged part. -/
def Edit.finish (e : Edit) : Edit :=
  { e with left := max e.left (e.leftStop - context), right := max e.right (e.rightStop - context) }

/-- Shortens the unchanged parts at both ends. -/
def trimEnds : List Edit → List Edit
  | [] => []
  | [e] => [if e.isSame then e.finish.start else e]
  | e :: rest =>
    let last := rest.getLast?.map fun l => if l.isSame then l.start else l
    (if e.isSame then e.finish else e) :: rest.dropLast ++ last.toList

/-- Groups edits: a long unchanged part ends a group and starts the next. `group` is the one begun,
    reversed. -/
def groups (group : List Edit) : List Edit → List (List Edit)
  | [] => if group.isEmpty ∨ (group.length = 1 ∧ group.all (·.isSame)) then [] else [group.reverse]
  | e :: rest =>
    if e.isSame ∧ e.leftStop - e.left > 2 * context then
      (e.start :: group).reverse :: groups [e.finish] rest
    else groups (e :: group) rest

/-! ## Text -/

/-- The lines a group covers on one side: the first and how many, counted from one. -/
def rangeText (start stop : Nat) : String :=
  if stop - start = 1 then toString (start + 1)
  else if stop = start then toString start ++ ",0"
  else toString (start + 1) ++ "," ++ toString (stop - start)

/-- Lines with a mark before each. -/
def marked (mark : String) (ls : List Line) (start stop : Nat) : Bytes :=
  ((ls.take stop).drop start).flatMap (utf8 mark ++ ·)

/-- An edit as it is shown. -/
def Edit.text (left right : List Line) (e : Edit) : Bytes :=
  if e.isSame then marked " " left e.left e.leftStop
  else marked "-" left e.left e.leftStop ++ marked "+" right e.right e.rightStop

/-- A group as it is shown. -/
def groupText (left right : List Line) (g : List Edit) : Bytes :=
  match g, g.getLast? with
  | first :: _, some last =>
    utf8 ("@@ -" ++ rangeText first.left last.leftStop ++ " +" ++
      rangeText first.right last.rightStop ++ " @@\n") ++ g.flatMap (Edit.text left right)
  | _, _ => []

/-- The differences between two texts under their names; nothing if there are none. -/
def unified (name otherName : String) (before after : Bytes) : Bytes :=
  if before == after then []
  else
    let left := lines before
    let right := lines after
    match groups [] (trimEnds (edits left right)) with
    | [] => []
    | gs => utf8 ("--- " ++ name ++ "\n+++ " ++ otherName ++ "\n") ++ gs.flatMap (groupText left right)

end PineLang.Text.Diff
