import PineLang.Source.FileSet
import PineLang.Source.Recent

/-!
# Libraries of sources

A library numbers source files and reads each when its content is first asked for. A
cache keeps the files read last; what it dropped is read again. Any store that may forget serves as the
cache; the library of the compiler has an adaptive one.
-/
namespace PineLang

/-- Why a library has no answer. -/
inductive LibraryFault where
  | unknownFile (id : Nat)
  | disk (fault : DiskFault)
  | noLine (line : Nat) (path : String)
  /-- The program stops. -/
  | crash (place : Crash)
  deriving DecidableEq, Repr

/-- What is said about a fault. -/
def LibraryFault.message : LibraryFault → String
  | unknownFile id => "unknown source file: id " ++ toString id
  | disk f => f.message
  | noLine line path => "line " ++ toString line ++ " out of range in " ++ path
  | crash _ => ""

/-- A store of values under keys that may forget some of them. Looking a value up can change what is forgotten
    next. -/
class Memo (γ : Type) (κ υ : outParam Type) where
  ofSize : Nat → γ
  get? : γ → κ → Option (υ × γ)
  add : γ → κ → υ → γ

instance {κ υ : Type} [BEq κ] : Memo (AdaptiveCache κ υ) κ υ where
  ofSize size := ⟨size, 0, [], [], [], []⟩
  get? := AdaptiveCache.get?
  add := AdaptiveCache.add

/-- The known files and the cache of those read. -/
structure CachedLibrary (γ : Type) where
  files : FileSet := {}
  cache : γ
  deriving Repr

/-- A library with an adaptive cache. -/
abbrev Library := CachedLibrary (AdaptiveCache Nat SourceFile)

namespace CachedLibrary

variable {γ : Type} [Memo γ Nat SourceFile]

/-- How many files are kept unless something else is asked for. -/
def defaultSize : Nat := 64

/-- A library over a file set; a size of zero is the default size. -/
def ofFiles (files : FileSet) (size : Nat := 0) : CachedLibrary γ :=
  ⟨files, Memo.ofSize (if size = 0 then defaultSize else size)⟩

/-- The file of a number, from the cache, the file set or the storage. -/
def fetch (l : CachedLibrary γ) (storage : Storage) (id : Nat) : Except LibraryFault SourceFile × CachedLibrary γ :=
  match Memo.get? l.cache id with
  | some (f, cache) => (.ok f, { l with cache })
  | none =>
    match l.files.record? id with
    | none => (.error (.unknownFile id), l)
    | some (.loaded f) => (.ok { f with id }, { l with cache := Memo.add l.cache id { f with id } })
    | some (.named path) =>
      match storage path with
      | .error f => (.error (.disk f), l)
      | .ok raw =>
        let (content, hadMark) := dropMark raw
        let (content, hadCarriage) := plainBreaks content
        let flags : FileFlags := if hadMark then FileFlags.union {} .hadMark else {}
        let flags := if hadCarriage then flags.union .hadCarriage else flags
        let f : SourceFile := { id, path, content, lineBreaks := breakOffsets content, hash := sha256 content, flags }
        (.ok f, { l with cache := Memo.add l.cache id f })

/-- Numbers a path and reads its file at once. -/
def openPath (l : CachedLibrary γ) (storage : Storage) (path : String) : Except LibraryFault Nat × CachedLibrary γ :=
  let (id, files) := l.files.intern path
  match { l with files }.fetch storage id with
  | (.ok _, l) => (.ok id, l)
  | (.error f, l) => (.error f, l)

/-- The path of a number. -/
def name (l : CachedLibrary γ) (id : Nat) : Except LibraryFault String :=
  match l.files.record? id with
  | some r => .ok r.path
  | none => .error (.unknownFile id)

/-- The content of a file. -/
def source (l : CachedLibrary γ) (storage : Storage) (id : Nat) : Except LibraryFault Bytes × CachedLibrary γ :=
  let (f, l) := l.fetch storage id
  (f.map (·.content), l)

/-- The line of an offset, counted from zero. -/
def lineIndex (l : CachedLibrary γ) (storage : Storage) (id off : Nat) :
    Except LibraryFault Nat × CachedLibrary γ :=
  let (f, l) := l.fetch storage id
  (f.map (·.lineOf off), l)

/-- The span of a line, counted from zero. -/
def lineRange (l : CachedLibrary γ) (storage : Storage) (id line : Nat) :
    Except LibraryFault Span × CachedLibrary γ :=
  match l.fetch storage id with
  | (.error f, l) => (.error f, l)
  | (.ok f, l) =>
    match f.lineRange line with
    | .ok (some (start, stop)) => (.ok ⟨id, start, stop⟩, l)
    | .ok none => (.error (.noLine line f.path), l)
    | .error place => (.error (.crash place), l)

/-- The positions of a span; zeros if its file cannot be read. -/
def resolve (l : CachedLibrary γ) (storage : Storage) (span : Span) : (LineCol × LineCol) × CachedLibrary γ :=
  match l.fetch storage span.file with
  | (.ok f, l) => (f.resolve span, l)
  | (.error _, l) => ((⟨0, 0⟩, ⟨0, 0⟩), l)

end CachedLibrary

/-- A library that knows no file. -/
def Library.empty : Library := .ofFiles {}

end PineLang
