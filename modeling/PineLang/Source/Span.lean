/-!
# Spans

A span is a half-open range of byte offsets in one file. Offsets are below `2 ^ 32`; differences
of offsets are taken modulo `2 ^ 32`. A count has to be below `2 ^ 32` as well, or the program stops.
-/
namespace PineLang

/-- Where the program stops without an answer: at a count that is no 32-bit number, or at an index behind
    the end. -/
inductive Crash where
  | lineCount | contentLength | fileCount | index
  deriving DecidableEq, Repr

/-- A count as a 32-bit number. -/
def narrow (n : Nat) (crash : Crash) : Except Crash Nat := if n < 0x100000000 then .ok n else .error crash

/-- `a - b` modulo `2 ^ 32`. -/
def wrapSub (a b : Nat) : Nat := (a % 0x100000000 + 0x100000000 - b % 0x100000000) % 0x100000000

/-- A half-open range of byte offsets in a file. -/
structure Span where
  file : Nat := 0
  start : Nat := 0
  stop : Nat := 0
  deriving DecidableEq, Repr, Inhabited

namespace Span

/-- The empty span at an offset. -/
def point (file off : Nat) : Span := ⟨file, off, off⟩

/-- The span holds no byte. -/
def isEmpty (s : Span) : Bool := s.start == s.stop

/-- The number of bytes, modulo `2 ^ 32` when the ends are reversed. -/
def length (s : Span) : Nat := wrapSub s.stop s.start

/-- The least span that holds both. A span of another file is left out. -/
def cover (s t : Span) : Span :=
  if s.file = t.file then ⟨s.file, min s.start t.start, max s.stop t.stop⟩ else s

/-- `t` lies within `s`. -/
def contains (s t : Span) : Bool :=
  s.file == t.file && s.start ≤ t.start && t.stop ≤ s.stop

/-- `file:start-stop`. -/
def text (s : Span) : String :=
  toString s.file ++ ":" ++ toString s.start ++ "-" ++ toString s.stop

theorem cover_start_le (s t : Span) : (s.cover t).start ≤ s.start := by
  unfold cover
  split
  · exact Nat.min_le_left s.start t.start
  · exact Nat.le_refl s.start

theorem stop_le_cover (s t : Span) : s.stop ≤ (s.cover t).stop := by
  unfold cover
  split
  · exact Nat.le_max_left s.stop t.stop
  · exact Nat.le_refl s.stop

@[simp] theorem cover_file (s t : Span) : (s.cover t).file = s.file := by
  unfold cover; split <;> rfl

end Span
end PineLang
