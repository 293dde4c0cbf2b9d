import PineLang.Source.Path
import PineLang.Source.Sha256
import PineLang.Source.Span

/-!
# Source files

A source file with its content and the offsets of its line breaks, from which offsets get their
lines and columns.
-/
namespace PineLang

/-- What is known about the origin of a file. -/
structure FileFlags where
  bits : Nat := 0
  deriving DecidableEq, Repr, Inhabited

namespace FileFlags

/-- The file was added from memory. -/
def inMemory : FileFlags := ⟨1⟩

/-- The file had a byte order mark. -/
def hadMark : FileFlags := ⟨2⟩

/-- The file had carriage returns before line feeds. -/
def hadCarriage : FileFlags := ⟨4⟩

/-- What either of two says. -/
def union (f g : FileFlags) : FileFlags := ⟨f.bits ||| g.bits⟩

/-- The flags of a file read from disk. -/
def ofRead (hadMark hadCarriage : Bool) : FileFlags :=
  ⟨(if hadMark then 2 else 0) + (if hadCarriage then 4 else 0)⟩

/-- The file was added from memory. -/
def isInMemory (f : FileFlags) : Bool := f.bits % 2 == 1

end FileFlags

/-- A source file. `lineBreaks` holds the offset of every line break. -/
structure SourceFile where
  id : Nat
  path : String
  content : Bytes
  lineBreaks : List Nat
  hash : Bytes
  flags : FileFlags
  deriving DecidableEq, Repr, Inhabited

/-- A position for people: both parts count from one. -/
structure LineCol where
  line : Nat
  col : Nat
  deriving DecidableEq, Repr, Inhabited

/-- The offsets of the line breaks from offset `off` on. -/
def breakOffsetsFrom (off : Nat) : Bytes → List Nat
  | [] => []
  | b :: rest => if b == 0x0A then off :: breakOffsetsFrom (off + 1) rest else breakOffsetsFrom (off + 1) rest

/-- The offsets of the line breaks. -/
def breakOffsets (content : Bytes) : List Nat := breakOffsetsFrom 0 content

/-- The line and column of an offset: the line breaks before it are counted, and the column counts
    from the last of them, both modulo `2 ^ 32`. -/
def lineCol (breaks : List Nat) (off : Nat) : LineCol :=
  let before := breaks.takeWhile (· < off)
  let start := match before.getLast? with
    | some b => b + 1
    | none => 0
  ⟨(before.length + 1) % 0x100000000, (wrapSub off start + 1) % 0x100000000⟩

namespace SourceFile

/-- A file with this content. -/
def ofContent (id : Nat) (path : String) (content : Bytes) (flags : FileFlags) : SourceFile :=
  ⟨id, path, content, breakOffsets content, sha256 content, flags⟩

/-- A file that is only known by its path. -/
def ofPath (id : Nat) (path : String) : SourceFile :=
  ⟨id, path, [], [], List.replicate 32 0, {}⟩

/-- The name without directory and extension. -/
def name (f : SourceFile) : String := Path.stem f.path

/-- The positions of the two ends of a span. -/
def resolve (f : SourceFile) (s : Span) : LineCol × LineCol :=
  (lineCol f.lineBreaks s.start, lineCol f.lineBreaks s.stop)

/-- The line of an offset, counted from zero. -/
def lineOf (f : SourceFile) (off : Nat) : Nat := wrapSub (lineCol f.lineBreaks off).line 1

/-- The offsets at which a line starts and ends, without its line break. Lines count from zero. -/
def lineBounds? (f : SourceFile) (line : Nat) : Option (Nat × Nat) :=
  if line > f.lineBreaks.length then none
  else
    let start := if line == 0 then 0 else (f.lineBreaks[line - 1]?.map (· + 1)).getD 0
    let stop := f.lineBreaks[line]?.getD f.content.length
    some (start, stop)

/-- The same, unless there are too many lines or bytes to be counted. -/
def lineRange (f : SourceFile) (line : Nat) : Except Crash (Option (Nat × Nat)) := do
  let _ ← narrow f.lineBreaks.length .lineCount
  let _ ← narrow f.content.length .contentLength
  return f.lineBounds? line

/-- The bytes between two offsets. -/
def slice (f : SourceFile) (start stop : Nat) : Bytes := (f.content.take stop).drop start

/-- The text of a line, counted from one; empty if there is no such line. -/
def getLine (f : SourceFile) (line : Nat) : Except Crash Bytes :=
  if line == 0 then .ok []
  else (f.lineRange (line - 1)).map fun range =>
    match range with
    | some (start, stop) => f.slice start stop
    | none => []

end SourceFile

/-! ## Reading from disk -/

/-- The bytes without a byte order mark, and whether there was one. -/
def dropMark : Bytes → Bytes × Bool
  | 0xEF :: 0xBB :: 0xBF :: rest => (rest, true)
  | bs => (bs, false)

/-- Every carriage return before a line feed is dropped. -/
@[simp] def joinCarriage : Bytes → Bytes
  | 0x0D :: 0x0A :: rest => 0x0A :: joinCarriage rest
  | b :: rest => b :: joinCarriage rest
  | [] => []

/-- Some carriage return stands before a line feed. -/
def hasCarriage : Bytes → Bool
  | 0x0D :: 0x0A :: _ => true
  | _ :: rest => hasCarriage rest
  | [] => false

/-- What is kept of the bytes on disk: no byte order mark, and plain line feeds. -/
def readText (raw : Bytes) : Bytes × FileFlags :=
  let (content, hadMark) := dropMark raw
  (joinCarriage content, .ofRead hadMark (hasCarriage content))

/-- Drops every carriage return before a line feed, and says whether there was one. -/
def joinCarriages : Bytes → Bytes × Bool
  | 0x0D :: 0x0A :: rest => (0x0A :: (joinCarriages rest).1, true)
  | b :: rest =>
    let joined := joinCarriages rest
    (b :: joined.1, joined.2)
  | [] => ([], false)

/-- The same. Bytes without a carriage return are given back as they are. -/
def plainBreaks (bs : Bytes) : Bytes × Bool := if bs.contains 0x0D then joinCarriages bs else (bs, false)

theorem joinCarriages_eq (bs : Bytes) : joinCarriages bs = (joinCarriage bs, hasCarriage bs) := by
  fun_induction joinCarriages bs with
  | case1 rest ih => rw [joinCarriage, hasCarriage, ih]
  | case2 b rest other joined ih =>
    have same : joined = (joinCarriage rest, hasCarriage rest) := ih
    rw [same, joinCarriage, hasCarriage]
    · exact other
    · exact other
  | case3 => rfl

theorem plain_of_not_contains {bs : Bytes} (plain : bs.contains 0x0D = false) :
    joinCarriage bs = bs ∧ hasCarriage bs = false := by
  induction bs with
  | nil => exact ⟨rfl, rfl⟩
  | cons b rest ih =>
    rw [List.contains_cons, Bool.or_eq_false_iff] at plain
    obtain ⟨joined, none⟩ := ih plain.2
    have other : ∀ tail, b = 0x0D → rest = 0x0A :: tail → False := by
      rintro _ rfl _
      exact absurd plain.1 (by decide)
    rw [joinCarriage, hasCarriage, joined, none]
    · exact ⟨rfl, rfl⟩
    · exact other
    · exact other

theorem plainBreaks_eq (bs : Bytes) : plainBreaks bs = (joinCarriage bs, hasCarriage bs) := by
  unfold plainBreaks
  split
  · exact joinCarriages_eq bs
  · next plain =>
    obtain ⟨joined, none⟩ := plain_of_not_contains (eq_false_of_ne_true plain)
    rw [joined, none]

end PineLang
