import PineLang.Check.Reserved
import PineLang.Check.Suggest
import PineLang.Diag.Diagnostic
import PineLang.Syntax.Holes

/-!
# The rules of a program

Every struct that is mentioned is declared; a struct literal only initialises a binding of its own
type and names each field of the struct exactly once; declared names are distinct where they have
to be and can stand in C; and the entry function takes no parameters. A violation is a diagnostic,
and all of them are found.
-/
namespace PineLang
namespace Check

/-- The declarations of a file: of several with one name, the first. -/
structure Scope where
  structs : List StructDecl := []
  fns : List FnDecl := []
  deriving Inhabited

/-- The struct with a name. -/
def Scope.struct? (s : Scope) (name : String) : Option StructDecl :=
  s.structs.find? (·.name == name)

/-- The function with a name. -/
def Scope.fn? (s : Scope) (name : String) : Option FnDecl := s.fns.find? (·.name == name)

/-- What a name is given to. -/
inductive Role where
  | struct | function | field | parameter | binding
  deriving DecidableEq, Repr

/-- The word for a role. -/
def Role.text : Role → String
  | struct => "struct"
  | function => "function"
  | field => "field"
  | parameter => "parameter"
  | binding => "variable"

/-- A name that C cannot carry. The entry function may be called `main`. -/
def nameRule (name : String) (span : Span) (role : Role) : List Diagnostic :=
  if name == "main" && role == .function then []
  else match reservedReason? name with
    | none => []
    | some reason =>
      [.ofError .reservedName span (role.text ++ " name `" ++ name ++ "` is reserved")
        [⟨span, reason⟩]]

/-! ## Declarations -/

/-- What has been declared so far: the scope, and where each name was first declared. -/
structure Declared where
  scope : Scope := {}
  places : List (String × Span) := []

/-- The name of an item and its place. -/
def itemName : Item → String × Span
  | .fn d => (d.name, d.nameSpan)
  | .struct d => (d.name, d.nameSpan)
  | .absent _ => ("", {})
  | .hollow _ _ => ("", {})

/-- The rule on the name of an item. -/
def itemNameRule : Item → List Diagnostic
  | .fn d => nameRule d.name d.nameSpan .function
  | .struct d => nameRule d.name d.nameSpan .struct
  | _ => []

/-- Adds the declaration of an item to a scope. -/
def Scope.add (s : Scope) : Item → Scope
  | .fn d => { s with fns := s.fns ++ [d] }
  | .struct d => { s with structs := s.structs ++ [d] }
  | _ => s

/-- Declares an item: a name can be declared only once. -/
def declare (known : Declared) (i : Item) : Declared × List Diagnostic :=
  let (name, span) := itemName i
  match known.places.find? (·.1 == name) with
  | none => (⟨known.scope.add i, known.places ++ [(name, span)]⟩, itemNameRule i)
  | some (_, previous) =>
    (known, itemNameRule i ++
      [.ofError .duplicateDeclaration span ("`" ++ name ++ "` is declared more than once")
        [⟨previous, "previous declaration is here"⟩]])

/-- Declares items one after the other. -/
@[grind =] def declareAll (known : Declared) : List Item → Declared × List Diagnostic
  | [] => (known, [])
  | i :: rest =>
    let (next, found) := declare known i
    let (all, more) := declareAll next rest
    (all, found ++ more)

/-! ## Types and expressions -/

/-- A struct that is not declared, where the structs that are come in the given order. -/
def unknownStructAmong (listed : List String) (name : String) (span : Span) : Diagnostic :=
  .ofError .unknownStruct span ("unknown struct `" ++ name ++ "`") <|
    match suggest? name listed with
    | some hint => [⟨span, "did you mean `" ++ hint ++ "`?"⟩]
    | none => []

/-- A struct that is not declared. -/
def unknownStruct (scope : Scope) (name : String) (span : Span) : Diagnostic :=
  unknownStructAmong (scope.structs.map (·.name)) name span

/-- The rule on a struct that is mentioned. -/
def structRule (scope : Scope) (name : String) (span : Span) : List Diagnostic :=
  if (scope.struct? name).isSome then [] else [unknownStruct scope name span]

/-- The rule on a type. -/
def typeRule (scope : Scope) (t : TypeRef) : List Diagnostic :=
  match t.ty with
  | .struct n => structRule scope n t.span
  | _ => []

/-- A struct literal that initialises no binding. -/
def literalPosition (name : String) (span : Span) : Diagnostic :=
  .ofError .literalPosition span
    ("`" ++ name ++ "` literal can only initialize a `let` binding")
    [⟨span, "bind it first: `let v: " ++ name ++ " = ...`"⟩]

mutual

/-- The rules on an expression that is not the value of a binding. -/
def exprRules (scope : Scope) : Expr → List Diagnostic
  | .ident _ _ => []
  | .lit _ _ => []
  | .assign _ a b => exprRules scope a ++ exprRules scope b
  | .call _ f args => exprRules scope f ++ exprsRules scope args
  | .member _ t _ _ => exprRules scope t
  | .unary _ _ x => exprRules scope x
  | .binary _ _ a b => exprRules scope a ++ exprRules scope b
  | .group _ x => exprRules scope x
  | .structLit s n ns fs =>
    literalPosition n s :: structRule scope n ns ++ valuesRules scope fs
  | .absent _ => []
  | .hollow _ _ => []

/-- The rules on expressions. -/
def exprsRules (scope : Scope) : List Expr → List Diagnostic
  | [] => []
  | x :: xs => exprRules scope x ++ exprsRules scope xs

/-- The rules on the value of one field of a literal. -/
def valueRules (scope : Scope) : FieldInit → List Diagnostic
  | .mk _ _ v => exprRules scope v

/-- The rules on the values of the fields of a literal. -/
def valuesRules (scope : Scope) : List FieldInit → List Diagnostic
  | [] => []
  | f :: fs => valueRules scope f ++ valuesRules scope fs

end

mutual

/-- The identifiers of an expression and their places, in the order of the source. -/
def identsIn : Expr → List (String × Span)
  | .ident s n => [(n, s)]
  | .lit _ _ => []
  | .assign _ a b => identsIn a ++ identsIn b
  | .call _ f args => identsIn f ++ identsInAll args
  | .member _ t _ _ => identsIn t
  | .unary _ _ x => identsIn x
  | .binary _ _ a b => identsIn a ++ identsIn b
  | .group _ x => identsIn x
  | .structLit _ _ _ fs => identsInFields fs
  | .absent _ => []
  | .hollow _ _ => []

/-- The identifiers of expressions. -/
def identsInAll : List Expr → List (String × Span)
  | [] => []
  | x :: xs => identsIn x ++ identsInAll xs

/-- The identifiers of the value of one field. -/
def identsInField : FieldInit → List (String × Span)
  | .mk _ _ v => identsIn v

/-- The identifiers of the values of fields. -/
def identsInFields : List FieldInit → List (String × Span)
  | [] => []
  | f :: fs => identsInField f ++ identsInFields fs

end

/-! ## Struct literals -/

/-- The value of a field is evaluated into a temporary that bears the field's name, so it must not
    mention a name that one of the temporaries so far hides. -/
def shadowingRule (temps : List String) (f : FieldInit) : List Diagnostic :=
  match (identsIn f.value).find? fun (n, _) => temps.contains n with
  | none => []
  | some (n, span) =>
    [.ofError .temporaryShadowing span
      ("`" ++ n ++ "` would refer to the field temporary of the same name")
      [⟨f.span, "bind the value to a differently named variable first"⟩]]

/-- The rule on the name of one field of a literal. -/
def fieldNameRule (decl : StructDecl) (temps : List String) (f : FieldInit) : List Diagnostic :=
  let known := decl.fields.map (·.name)
  if !known.contains f.name then
    [.ofError .unknownField f.span ("struct `" ++ decl.name ++ "` has no field `" ++ f.name ++ "`") <|
      match suggest? f.name known with
      | some hint => [⟨f.span, "did you mean `" ++ hint ++ "`?"⟩]
      | none => []]
  else if temps.contains f.name then
    [.ofError .duplicateField f.span ("field `" ++ f.name ++ "` is initialized more than once")]
  else []

/-- The rules on the fields of a literal, in order. `temps` holds the fields before them. -/
def fieldsRules (scope : Scope) (decl : StructDecl) (temps : List String) :
    List FieldInit → List Diagnostic
  | [] => []
  | f :: fs =>
    let hidden := temps ++ [f.name]
    fieldNameRule decl temps f ++ exprRules scope f.value ++ shadowingRule hidden f ++
      fieldsRules scope decl hidden fs

/-- The rules on a literal that initialises a binding of its own type. -/
def literalRules (scope : Scope) (name : String) (nameSpan : Span) (struct : String)
    (structSpan : Span) (fields : List FieldInit) : List Diagnostic :=
  match scope.struct? struct with
  | none => valuesRules scope fields
  | some decl =>
    let temps := fields.map (·.name)
    let missing := (decl.fields.map (·.name)).filter fun f => !temps.contains f
    let gaps := if missing.isEmpty then []
      else [.ofError .missingField structSpan
        ("missing field(s) " ++ ", ".intercalate (missing.map fun f => "`" ++ f ++ "`") ++
          " in `" ++ struct ++ "` literal")
        [⟨decl.nameSpan, "struct is declared here"⟩]]
    let clash := if temps.contains name then
        [.ofError .temporaryShadowing nameSpan
          ("variable `" ++ name ++ "` has the same name as a field of its `" ++ struct ++
            "` initializer")
          [⟨nameSpan, "rename the variable"⟩]]
      else []
    fieldsRules scope decl [] fields ++ gaps ++ clash

/-- The rules on the value of a binding. -/
def initRules (scope : Scope) (name : String) (nameSpan : Span) (type : TypeRef) :
    Expr → List Diagnostic
  | .structLit s n ns fs =>
    if type.ty = .struct n then literalRules scope name nameSpan n ns fs
    else
      .ofError .literalType s
        ("cannot initialize `" ++ name ++ "` of type `" ++ type.ty.text ++ "` with a `" ++ n ++
          "` literal")
        [⟨type.span, "declared type is here"⟩] :: valuesRules scope fs
  | value => exprRules scope value

/-! ## Statements -/

mutual

/-- The rules on a statement. -/
def stmtRules (scope : Scope) : Stmt → List Diagnostic
  | .block _ ss => stmtsRules scope ss
  | .expr _ x => exprRules scope x
  | .cond _ t yes no => exprRules scope t ++ bodyRules scope yes ++ elseRules scope no
  | .ret _ none => []
  | .ret _ (some x) => exprRules scope x
  | .brk _ => []
  | .bind _ n ns t v =>
    nameRule n ns .binding ++ typeRule scope t ++ initRules scope n ns t v
  | .loop _ b => bodyRules scope b
  | .empty _ => []
  | .absent _ => []
  | .hollow _ _ => []

/-- The rules on a body. -/
def bodyRules (scope : Scope) : Body → List Diagnostic
  | .block _ ss => stmtsRules scope ss
  | .stray _ s => stmtRules scope s

/-- The rules on an optional branch. -/
def elseRules (scope : Scope) : Option Body → List Diagnostic
  | none => []
  | some b => bodyRules scope b

/-- The rules on statements. -/
def stmtsRules (scope : Scope) : List Stmt → List Diagnostic
  | [] => []
  | s :: ss => stmtRules scope s ++ stmtsRules scope ss

end

/-! ## Items -/

/-- The rules on the fields of a struct, in order. `seen` holds the fields before them. -/
def structFieldsRules (scope : Scope) (seen : List (String × Span)) : List Param → List Diagnostic
  | [] => []
  | f :: fs =>
    match seen.find? (·.1 == f.name) with
    | some (_, previous) =>
      .ofError .duplicateField f.span ("field `" ++ f.name ++ "` is declared more than once")
        [⟨previous, "previous declaration is here"⟩] :: structFieldsRules scope seen fs
    | none =>
      nameRule f.name f.span .field ++ typeRule scope f.type ++
        structFieldsRules scope (seen ++ [(f.name, f.span)]) fs

/-- The rule on the parameters of the entry function. -/
def mainRule (d : FnDecl) : List Diagnostic :=
  match d.params with
  | [] => []
  | p :: _ =>
    if d.name == "main" then
      [.ofError .mainSignature p.span "`main` must not take parameters"
        [⟨d.nameSpan, "declare it as `fun main() -> _:`"⟩]]
    else []

/-- The rules on a parameter. -/
def paramRules (scope : Scope) (p : Param) : List Diagnostic :=
  nameRule p.name p.span .parameter ++ typeRule scope p.type

/-- The rules on an item. -/
@[grind =] def itemRules (scope : Scope) : Item → List Diagnostic
  | .fn d =>
    mainRule d ++ d.params.flatMap (paramRules scope) ++ typeRule scope d.ret ++
      bodyRules scope d.body
  | .struct d => structFieldsRules scope [] d.fields
  | .absent _ => []
  | .hollow _ _ => []

/-- The rule that a program has an entry function. -/
def entryRule (scope : Scope) (f : File) : List Diagnostic :=
  if (scope.fn? "main").isSome then []
  else [.ofError .missingMain f.span "no `main` function declared"
    [⟨f.span, "declare `fun main() -> _:` as the program entry point"⟩]]

/-- What a check found: the declarations, how many violations it counted, and its reports in the
    order they are made. -/
structure Result where
  scope : Scope := {}
  errors : Nat := 0
  found : List Diagnostic := []
  deriving Inhabited

namespace Result

/-- Counts a violation and reports it. -/
def report (r : Result) (d : Diagnostic) : Result := { r with errors := r.errors + 1, found := r.found ++ [d] }

/-- Counts and reports violations one after the other. -/
def reportAll (r : Result) (ds : List Diagnostic) : Result := ds.foldl report r

theorem reportAll_eq (r : Result) (ds : List Diagnostic) :
    r.reportAll ds = { r with errors := r.errors + ds.length, found := r.found ++ ds } := by
  induction ds generalizing r with
  | nil => simp [reportAll]
  | cons d ds ih =>
    have step : r.reportAll (d :: ds) = (r.report d).reportAll ds := rfl
    rw [step, ih]
    simp only [report, List.length_cons, List.append_assoc, List.singleton_append, Nat.add_assoc, Nat.add_comm 1]

/-- The violations in words; none if none was counted. -/
def error? (r : Result) : Option String :=
  if r.errors == 0 then none else some ("program failed structural checks: " ++ toString r.errors ++ " error(s)")

end Result

/-! ## Holes -/

/-- A hole at which checking cannot go on. -/
def stopsAt : Hole → Bool
  | .expr _ => false
  | .hollowExpr k => exprKindHasParts k
  | .stmt _ => false
  | .hollowStmt k => stmtKindHasParts k
  | .item _ => true
  | .hollowItem k => k ≤ 1

/-- A hollow identifier in the value of a field, which cannot be compared with the temporaries. -/
def hasHollowIdent (fs : List FieldInit) : Bool :=
  (fieldHoles fs).any (· == .hollowExpr 0)

mutual

/-- A literal that initialises a binding of its own declared type has a hollow identifier. -/
def hollowInit (scope : Scope) : Stmt → Bool
  | .block _ ss => hollowInits scope ss
  | .cond _ _ yes no => hollowInitBody scope yes || hollowInitElse scope no
  | .loop _ b => hollowInitBody scope b
  | .bind _ _ _ t (.structLit _ n _ fs) =>
    t.ty == .struct n && (scope.struct? n).isSome && hasHollowIdent fs
  | _ => false

/-- The same of a body. -/
def hollowInitBody (scope : Scope) : Body → Bool
  | .block _ ss => hollowInits scope ss
  | .stray _ s => hollowInit scope s

/-- The same of an optional branch. -/
def hollowInitElse (scope : Scope) : Option Body → Bool
  | none => false
  | some b => hollowInitBody scope b

/-- The same of statements. -/
def hollowInits (scope : Scope) : List Stmt → Bool
  | [] => false
  | s :: ss => hollowInit scope s || hollowInits scope ss

end

/-- The same of an item. -/
def hollowInitItem (scope : Scope) : Item → Bool
  | .fn d => hollowInitBody scope d.body
  | _ => false

end Check

/-- Checks a file. A program, unlike a library, has to have an entry function. -/
def File.check (f : File) (isProgram : Bool) : Check.Result :=
  let (known, found) := Check.declareAll {} f.items
  let declared := Check.Result.reportAll { scope := known.scope } found
  let checked := declared.reportAll (f.items.flatMap (Check.itemRules known.scope))
  if isProgram then checked.reportAll (Check.entryRule known.scope f) else checked

theorem File.check_scope (f : File) (isProgram : Bool) :
    (f.check isProgram).scope = (Check.declareAll {} f.items).1.scope := by
  cases isProgram <;> simp [File.check, Check.Result.reportAll_eq]

theorem File.check_found (f : File) (isProgram : Bool) : (f.check isProgram).found =
    (Check.declareAll {} f.items).2 ++ f.items.flatMap (Check.itemRules (Check.declareAll {} f.items).1.scope) ++
      if isProgram then Check.entryRule (Check.declareAll {} f.items).1.scope f else [] := by
  cases isProgram <;> simp [File.check, Check.Result.reportAll_eq]

/-- A check counts as many violations as it reports. -/
theorem File.check_errors (f : File) (isProgram : Bool) :
    (f.check isProgram).errors = (f.check isProgram).found.length := by
  cases isProgram <;> simp [File.check, Check.Result.reportAll_eq]; omega

theorem File.error?_check_eq_none (f : File) (isProgram : Bool) :
    (f.check isProgram).error? = none ↔ (f.check isProgram).found = [] := by
  simp [Check.Result.error?, f.check_errors]

/-- No hole keeps the file from being checked. -/
def File.isCheckable (f : File) : Bool :=
  let scope := (Check.declareAll {} f.items).1.scope
  !f.holes.any Check.stopsAt && !f.items.any (Check.hollowInitItem scope)

end PineLang
