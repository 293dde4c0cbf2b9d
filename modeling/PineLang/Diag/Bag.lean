import PineLang.Diag.Diagnostic

/-!
# Collections of diagnostics

A bag keeps diagnostics in the order they are reported, up to a limit. It can be put in the order
of the source and freed of repeats.
-/
namespace PineLang

/-- Diagnostics in order, with a limit on their number; zero is no limit. -/
structure Bag where
  limit : Nat := 0
  items : List Diagnostic := []
  deriving Repr, Inhabited

namespace Bag

/-- The limit is reached. -/
def isFull (b : Bag) : Bool := b.limit != 0 && b.limit ≤ b.items.length

/-- Adds a diagnostic, unless the limit is reached, and says whether it did. -/
def add (b : Bag) (d : Diagnostic) : Bag × Bool :=
  if b.isFull then (b, false) else ({ b with items := b.items ++ [d] }, true)

/-- Adds diagnostics one after the other. -/
def addAll (b : Bag) (ds : List Diagnostic) : Bag := ds.foldl (fun b d => (b.add d).1) b

/-- The bag with these diagnostics, as far as the limit allows. -/
def ofList (limit : Nat) (ds : List Diagnostic) : Bag := addAll { limit } ds

/-- Some diagnostic is an error. -/
def hasErrors (b : Bag) : Bool := b.items.any fun d => d.severity.level ≥ Severity.error.level

/-- Adds diagnostics whatever the limit. -/
def merge (b : Bag) (ds : List Diagnostic) : Bag := { b with items := b.items ++ ds }

/-- `d` stands no later than `e`: by file, start, end, severity from high to low, and code. -/
def before (d e : Diagnostic) : Bool :=
  if d.span.file != e.span.file then d.span.file < e.span.file
  else if d.span.start != e.span.start then d.span.start < e.span.start
  else if d.span.stop != e.span.stop then d.span.stop < e.span.stop
  else if d.severity.level != e.severity.level then e.severity.level < d.severity.level
  else d.code.number ≤ e.code.number

/-- Puts the diagnostics in the order of the source; equal ones keep their order. -/
def sort (b : Bag) : Bag := { b with items := b.items.mergeSort before }

/-- Keeps the first of the diagnostics that share a code and a span. `seen` holds those before. -/
@[grind =] def dedupFrom (seen : List (Code × Span)) : List Diagnostic → List Diagnostic
  | [] => []
  | d :: rest =>
    if seen.contains (d.code, d.span) then dedupFrom seen rest
    else d :: dedupFrom ((d.code, d.span) :: seen) rest

/-- Keeps the first of the diagnostics that share a code and a span. -/
def dedup (b : Bag) : Bag := { b with items := dedupFrom [] b.items }

end Bag

/-! ## Repeated reports -/

/-- What makes two reports the same: everything but their notes. -/
def Diagnostic.key (d : Diagnostic) : Code × Severity × Span × String :=
  (d.code, d.severity, d.span, d.message)

/-- Drops the reports that repeat an earlier one. `seen` holds the keys before. -/
def uniqueFrom (seen : List (Code × Severity × Span × String)) :
    List Diagnostic → List Diagnostic
  | [] => []
  | d :: rest =>
    if seen.contains d.key then uniqueFrom seen rest else d :: uniqueFrom (d.key :: seen) rest

/-- Drops the reports that repeat an earlier one. -/
def uniqueReports (ds : List Diagnostic) : List Diagnostic := uniqueFrom [] ds

end PineLang
