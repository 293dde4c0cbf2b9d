import PineLang.Disk.Tree
import PineLang.Source.File

/-!
# Sets of files

A file set numbers paths in the order they are first met, after cleaning, and keeps what is known of
each file: only its path, or its content as well. A table of files keeps an index of the paths as well, and
stops where its numbers have run out.
-/
namespace PineLang

/-- What reading a path gives. -/
abbrev Storage := String → Except DiskFault Bytes

/-- What loading keeps of the bytes of a file. -/
def loadedText (raw : Bytes) : Bytes × FileFlags :=
  let (content, hadMark) := dropMark raw
  let (content, hadCarriage) := plainBreaks content
  let flags := if hadMark then FileFlags.union {} .hadMark else {}
  (content, if hadCarriage then flags.union .hadCarriage else flags)

theorem loadedText_eq (raw : Bytes) : loadedText raw = readText raw := by
  simp only [loadedText, readText, plainBreaks_eq]
  cases (dropMark raw).2 <;> cases hasCarriage (dropMark raw).1 <;> rfl

/-- What a set knows of a file. -/
inductive SourceRecord where
  | named (path : String)
  | loaded (file : SourceFile)
  deriving DecidableEq, Repr, Inhabited

namespace SourceRecord

/-- The path of the file. -/
def path : SourceRecord → String
  | named p => p
  | loaded f => f.path

/-- The file under its number. -/
def file (id : Nat) : SourceRecord → SourceFile
  | named p => .ofPath id p
  | loaded f => { f with id }

end SourceRecord

/-- The files met so far; a file's number is its place in the list. -/
structure FileSet where
  records : List SourceRecord := []
  deriving Repr, Inhabited

namespace FileSet

/-- The number of a path that was met before. -/
def lookup (s : FileSet) (path : String) : Option Nat :=
  s.records.findIdx? fun r => r.path == Path.clean path

/-- The number of a path, a new one if it was never met. -/
def intern (s : FileSet) (path : String) : Nat × FileSet :=
  match s.lookup path with
  | some id => (id, s)
  | none => (s.records.length, ⟨s.records ++ [.named (Path.clean path)]⟩)

/-- Keeps content under a path. A path that is known keeps its number. -/
def add (s : FileSet) (path : String) (content : Bytes) (flags : FileFlags) : Nat × FileSet :=
  let id := (s.lookup path).getD s.records.length
  let r := SourceRecord.loaded (.ofContent id (Path.clean path) content flags)
  (id, ⟨if id < s.records.length then s.records.set id r else s.records ++ [r]⟩)

/-- Keeps content that comes from no disk. -/
def addInMemory (s : FileSet) (path : String) (content : Bytes) : Nat × FileSet :=
  s.add path content .inMemory

/-- Reads a file and keeps its text under the path. -/
def load (s : FileSet) (storage : Storage) (path : String) : Except DiskFault (Nat × FileSet) :=
  (storage path).map fun raw => s.add path (loadedText raw).1 (loadedText raw).2

/-- The record of a number. -/
def record? (s : FileSet) (id : Nat) : Option SourceRecord := s.records[id]?

/-- The file of a number. -/
def get? (s : FileSet) (id : Nat) : Option SourceFile := (s.record? id).map (·.file id)

/-- A file that is kept is found under its number. -/
theorem get?_add (s : FileSet) (path : String) (content : Bytes) (flags : FileFlags) :
    (s.add path content flags).2.get? (s.add path content flags).1 =
      some (.ofContent (s.add path content flags).1 (Path.clean path) content flags) := by
  simp only [add, get?, record?]
  split
  · next known =>
    rw [List.getElem?_set_self known]
    rfl
  · next fresh =>
    have atEnd : (s.lookup path).getD s.records.length = s.records.length := by
      cases found : s.lookup path with
      | none => rfl
      | some id =>
        rw [found] at fresh
        exact absurd (List.findIdx?_eq_some_iff_getElem.mp found).1 fresh
    rw [atEnd, List.getElem?_concat_length]
    rfl

/-- How many paths were met. -/
def size (s : FileSet) : Nat := s.records.length

end FileSet

/-! ## Files with an index -/

/-- Files by number, next to an index of their paths in which a later entry hides an earlier one. A number has
    32 bits. -/
structure FileTable where
  files : List SourceFile := []
  index : List (String × Nat) := []
  deriving Repr

namespace FileTable

/-- The number of a path that is in the index. -/
def lookup (t : FileTable) (path : String) : Option Nat := t.index.lookup (Path.clean path)

/-- The file of a number. -/
def get? (t : FileTable) (id : Nat) : Option SourceFile := t.files[id]?

/-- How many files there are. -/
def size (t : FileTable) : Nat := t.files.length

/-- Gives a file the next number. -/
def append (t : FileTable) (f : SourceFile) : Except Crash (Nat × FileTable) :=
  (narrow t.files.length .fileCount).map fun id => (id, ⟨t.files ++ [{ f with id }], (f.path, id) :: t.index⟩)

/-- The number of a path, a new one if it is not in the index. -/
def intern (t : FileTable) (path : String) : Except Crash (Nat × FileTable) :=
  match t.lookup path with
  | some id => .ok (id, t)
  | none => t.append (.ofPath 0 (Path.clean path))

/-- Keeps content under a path. -/
def add (t : FileTable) (path : String) (content : Bytes) (flags : FileFlags) : Except Crash (Nat × FileTable) :=
  let f := SourceFile.ofContent 0 (Path.clean path) content flags
  match t.lookup path with
  | some id => .ok (id, { t with files := t.files.set id { f with id } })
  | none => t.append f

/-- Reads a file and keeps its text under the path. -/
def load (t : FileTable) (storage : Storage) (path : String) : Except Crash (Except DiskFault Nat × FileTable) :=
  match storage path with
  | .error fault => .ok (.error fault, t)
  | .ok raw => (t.add path (loadedText raw).1 (loadedText raw).2).map fun (id, t) => (.ok id, t)

/-- The positions of a span; zeros if its file is not known. -/
def resolve (t : FileTable) (span : Span) : LineCol × LineCol :=
  match t.get? span.file with
  | some f => f.resolve span
  | none => (⟨0, 0⟩, ⟨0, 0⟩)

end FileTable

end PineLang
