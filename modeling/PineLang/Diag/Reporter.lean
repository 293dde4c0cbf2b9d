import PineLang.Diag.Bag

/-!
# Reporting diagnostics

What stands between a stage that reports and the bag that keeps: a filter for repeated reports, a
draft that is sent at most once, and a stream that gathers reports until it is closed.
-/
namespace PineLang

/-! ## Repeated reports -/

/-- The keys of what was reported so far. -/
structure Reported where
  keys : List (Code × Severity × Span × String) := []
  deriving Repr, Inhabited

/-- Passes a report on to a bag unless the same was reported before. -/
def Reported.report (seen : Reported) (b : Bag) (d : Diagnostic) : Reported × Bag :=
  if seen.keys.contains d.key then (seen, b) else (⟨d.key :: seen.keys⟩, (b.add d).1)

/-! ## Drafts -/

/-- A diagnostic that is being put together, and whether it was sent. -/
structure Draft where
  diagnostic : Diagnostic
  sent : Bool := false
  deriving Repr, Inhabited

namespace Draft

/-- Adds a note. -/
def withNote (d : Draft) (n : Note) : Draft :=
  { d with diagnostic := { d.diagnostic with notes := d.diagnostic.notes ++ [n] } }

/-- Sends the draft to a bag, unless it was sent before. -/
def send (d : Draft) (b : Bag) : Draft × Bag :=
  if d.sent then (d, b) else ({ d with sent := true }, (b.add d.diagnostic).1)

/-- Sends the draft again and again. -/
def sendTimes (d : Draft) (b : Bag) : Nat → Draft × Bag
  | 0 => (d, b)
  | n + 1 =>
    let (d, b) := d.send b
    d.sendTimes b n

end Draft

/-! ## Streams -/

/-- Reports that wait to be collected; a closed stream takes no more. -/
structure Stream where
  waiting : List Diagnostic := []
  isClosed : Bool := false
  deriving Repr, Inhabited

namespace Stream

/-- Takes a report, unless the stream is closed. -/
def report (s : Stream) (d : Diagnostic) : Stream :=
  if s.isClosed then s else { s with waiting := s.waiting ++ [d] }

/-- Hands out what waits. -/
def drain (s : Stream) : List Diagnostic × Stream := (s.waiting, { s with waiting := [] })

/-- Closes the stream and hands out what waits. -/
def close (s : Stream) : List Diagnostic × Stream := (s.waiting, ⟨[], true⟩)

end Stream

end PineLang
