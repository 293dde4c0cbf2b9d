/-!
# Reserved names

Names of the language reach the generated C unchanged, so a declared name must be neither a C
keyword, nor a name that the included headers bring in, nor one that the runtime claims.
-/
namespace PineLang.Check

/-- The keywords of C. -/
def cKeywords : List String :=
  ["auto", "break", "case", "char", "const", "continue", "default", "do",
   "double", "else", "enum", "extern", "float", "for", "goto", "if",
   "inline", "int", "long", "register", "restrict", "return", "short",
   "signed", "sizeof", "static", "struct", "switch", "typedef", "union",
   "unsigned", "void", "volatile", "while",
   "_Alignas", "_Alignof", "_Atomic", "_Bool", "_Complex", "_Generic",
   "_Imaginary", "_Noreturn", "_Static_assert", "_Thread_local"]

/-- Names that the standard headers bring in. -/
def headerNames : List String :=
  ["int8_t", "int16_t", "int32_t", "int64_t",
   "uint8_t", "uint16_t", "uint32_t", "uint64_t",
   "intptr_t", "uintptr_t", "size_t", "ptrdiff_t", "NULL",
   "bool", "true", "false"]

/-- Names that the runtime defines. -/
def runtimeNames : List String :=
  ["gc", "main", "PineGc", "PineGcFlag", "PineAllocation", "PineAllocationMap"]

/-- All single names that are reserved. -/
def reservedNames : List String := cKeywords ++ headerNames ++ runtimeNames

/-- Beginnings of names that belong to the runtime. -/
def reservedStarts : List String := ["gc_", "print_", "pine_", "PINE_", "__"]

/-- The ending of the names of generated constructors. -/
def constructorEnding : String := "__internal__new_gc"

/-- Why a name cannot be declared; none if it can. -/
def reservedReason? (name : String) : Option String :=
  if reservedNames.contains name then some "it is a C keyword or a name the runtime defines"
  else match reservedStarts.find? fun p => p.toList.isPrefixOf name.toList with
    | some p => some ("the `" ++ p ++ "` prefix belongs to the runtime")
    | none =>
      if constructorEnding.toList.isSuffixOf name.toList then
        some "it clashes with generated struct constructors"
      else none

end PineLang.Check
