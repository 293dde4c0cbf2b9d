/-!
# Suggestions

For a name that is not known, the known name nearest to it in edit distance, if that is near
enough to be a slip: at most a third of the name's length, and never less than one edit.
-/
namespace PineLang.Check

/-- The next row of the table of edit distances: `left` is the entry to the left, `diagonal` the
    one above it. -/
def distanceRow (c : Char) (left diagonal : Nat) : List Char → List Nat → List Nat
  | d :: ds, above :: row =>
    let here := min (min (left + 1) (above + 1)) (if c == d then diagonal else diagonal + 1)
    here :: distanceRow c here above ds row
  | _, _ => []

/-- The rows of the table, one for every character, starting with the given row. -/
def distanceRows (t : List Char) : List Char → List Nat → List Nat
  | [], row => row
  | c :: cs, row =>
    let first := row.headD 0 + 1
    distanceRows t cs (first :: distanceRow c first (row.headD 0) t (row.drop 1))

/-- The least number of characters to insert, delete or replace to get from one string to the
    other. -/
def editDistance (s t : String) : Nat :=
  (distanceRows t.toList s.toList (List.range (t.length + 1))).getLastD 0

/-- The most edits a suggestion may be away. -/
def suggestionLimit (name : String) : Nat := max (name.utf8ByteSize / 3) 1

/-- Keeps the nearer of the best candidate so far and the next one. -/
def nearer (distance : String → String → Nat) (name : String) (best : String × Nat) (candidate : String) : String × Nat :=
  if candidate == name then best
  else
    let d := distance name candidate
    if d < best.2 then (candidate, d) else best

/-- The candidate nearest to the name, the least of those equally near. -/
def nearest? (distance : String → String → Nat) (name : String) (candidates : List String) : Option String :=
  let sorted := candidates.mergeSort fun a b => a ≤ b
  let (best, _) := sorted.foldl (nearer distance name) ("", suggestionLimit name + 1)
  if best.isEmpty then none else some best

/-- The candidate nearest to the name in edit distance. -/
def suggest? : String → List String → Option String := nearest? editDistance

end PineLang.Check
