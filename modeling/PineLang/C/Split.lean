import PineLang.C.Tree

/-!
# Header, source and entry point

A unit is split into a header, which holds the structs and a prototype of every function, and a
source, which holds the definitions and includes only that header. A program also gets an entry
unit, which starts the collector, runs the program, and stops the collector.
-/
namespace PineLang.C

/-- The name of the entry unit. -/
def entryName : String := "main"

/-- The function that the program's own entry becomes. -/
def programEntry : String := "pine_lang_main"

/-- The collector's handle. -/
def collector : String := "gc"

/-- The declaration belongs to the header as it is. -/
def Decl.isShared : Decl → Bool
  | struct _ _ | var _ _ _ => true
  | fn _ _ _ _ => false

/-- The prototype of a function. -/
def Decl.prototype? : Decl → Option Decl
  | fn n ps r _ => some (fn n ps r none)
  | _ => none

/-- The declaration is a function with a body. -/
def Decl.isDefinition : Decl → Bool
  | fn _ _ _ (some _) => true
  | _ => false

/-- The header of a unit. Prototypes come last: they mention the structs. -/
def CUnit.header (u : CUnit) : CUnit where
  name := u.name
  isHeader := true
  includes := u.includes
  decls := u.decls.filter Decl.isShared ++ u.decls.filterMap Decl.prototype?

/-- The source of a unit. -/
def CUnit.source (u : CUnit) : CUnit where
  name := u.name
  includes := [⟨u.name ++ ".h", false⟩]
  decls := u.decls.filter Decl.isDefinition

/-- The entry unit of the program whose unit has this name. -/
def entryUnit (name : String) : CUnit where
  name := entryName
  includes := [⟨"pine_gc.h", false⟩, ⟨"stdint.h", true⟩, ⟨name ++ ".h", false⟩]
  decls :=
    let handle := CExpr.unary .address (.ident collector)
    [.fn "main" [⟨"argc", .i32⟩, ⟨"argv", .ptr .str⟩] .i32 (some [
      .expr (call "gc_start" [handle, .unary .address (.ident "argc")]),
      .expr (call programEntry []),
      .expr (call "gc_stop" [handle]),
      .ret (some (.const (.int 0)))])]

end PineLang.C
