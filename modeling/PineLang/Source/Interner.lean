/-!
# Interned strings

Each string gets a number on first sight and keeps it. The empty string is number zero.
-/
namespace PineLang

/-- The strings seen so far, in the order of their numbers. -/
structure Interner where
  strings : List String
  deriving DecidableEq, Repr

namespace Interner

/-- Only the empty string is known. -/
def empty : Interner := ⟨[""]⟩

/-- The number of a known string. -/
def find? (t : Interner) (s : String) : Option Nat := t.strings.idxOf? s

/-- The number of a string, which is made known if it was not. -/
def intern (t : Interner) (s : String) : Nat × Interner :=
  match t.find? s with
  | some id => (id, t)
  | none => (t.strings.length, ⟨t.strings ++ [s]⟩)

/-- The string with a number. -/
def lookup (t : Interner) (id : Nat) : Option String := t.strings[id]?

/-- How many strings are known. -/
def size (t : Interner) : Nat := t.strings.length

/-- Makes all the strings known, in order. -/
def internAll (t : Interner) (ss : List String) : Interner :=
  ss.foldl (fun t s => (t.intern s).2) t

end Interner

/-- Strings by number, next to an index of them in which a later entry hides an earlier one. A number has 32
    bits, and the first string behind the last number begins again at zero. -/
structure NameTable where
  names : List String := [""]
  index : List (String × Nat) := [("", 0)]
  deriving Repr

namespace NameTable

/-- The number of a string, the next one if it is not in the index. -/
def intern (t : NameTable) (s : String) : Nat × NameTable :=
  match t.index.lookup s with
  | some id => (id, t)
  | none =>
    let id := t.names.length % 0x100000000
    (id, ⟨t.names ++ [s], (s, id) :: t.index⟩)

/-- The string with a number. -/
def lookup (t : NameTable) (id : Nat) : Option String := t.names[id]?

/-- How many strings are known. -/
def size (t : NameTable) : Nat := t.names.length

end NameTable
end PineLang
