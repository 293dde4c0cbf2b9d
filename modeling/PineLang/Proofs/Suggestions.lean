import Mathlib.Data.List.Forall2
import PineLang.Check.Rules

/-!
# Suggestions

The name that is suggested for an unknown one is the least of the nearest candidates, whatever the distance and in whatever
order, and however often, the candidates come (`suggestions_least`). The scan keeps the first of the nearest it has come
upon (`foldl_nearer`); since it runs in order, that is also the least. Every report of a check is either one that lists no
names or one on an unknown struct (`check_listed`), so that a check finds the same in whatever order the declared
structs are listed.
-/
namespace PineLang.Check

variable {distance : String → String → Nat} {name hint : String} {cs ds : List String}

/-! ## The scan -/

/-- A candidate that is near enough to the name to stand in for it. -/
def Near (distance : String → String → Nat) (name : String) (candidates : List String) (c : String) : Prop :=
  c ∈ candidates ∧ c ≠ name ∧ distance name c ≤ suggestionLimit name

/-- One candidate is nearer than the other, or as near and not greater. -/
def NoFarther (distance : String → String → Nat) (name c d : String) : Prop :=
  distance name c < distance name d ∨ distance name c = distance name d ∧ c ≤ d

/-- What a scan of candidates comes to: it stays where it started if none is nearer, and else ends at the first of the
    nearest. -/
inductive Scanned (distance : String → String → Nat) (name : String) (cs : List String) (start : String × Nat) :
    String × Nat → Prop where
  | stayed (none : ∀ c ∈ cs, c ≠ name → start.2 ≤ distance name c) : Scanned distance name cs start start
  | moved {best : String} (candidate : best ∈ cs) (other : best ≠ name) (near : distance name best < start.2)
      (least : ∀ c ∈ cs, c ≠ name → NoFarther distance name best c) :
      Scanned distance name cs start (best, distance name best)

/-- A candidate that is no nearer than the start changes nothing. -/
theorem Scanned.skip {c : String} {start done : String × Nat} (far : c ≠ name → start.2 ≤ distance name c)
    (scan : Scanned distance name cs start done) : Scanned distance name (c :: cs) start done := by
  cases scan with
  | stayed none =>
    refine .stayed ?_
    rintro d (_ | ⟨_, inside⟩) other
    · exact far other
    · exact none d inside other
  | moved candidate other near least =>
    refine .moved (List.mem_cons_of_mem c candidate) other near ?_
    rintro d (_ | ⟨_, inside⟩) apart
    · exact .inl (Nat.lt_of_lt_of_le near (far apart))
    · exact least d inside apart

/-- A nearer candidate takes the place of the start, and keeps it from those that are as near but come later. -/
theorem Scanned.take {c : String} {start done : String × Nat} (other : c ≠ name) (near : distance name c < start.2)
    (first : ∀ d ∈ cs, c ≤ d) (scan : Scanned distance name cs (c, distance name c) done) :
    Scanned distance name (c :: cs) start done := by
  cases scan with
  | stayed none =>
    refine .moved List.mem_cons_self other near ?_
    rintro d (_ | ⟨_, inside⟩) apart
    · exact .inr ⟨rfl, String.le_refl c⟩
    · exact (Nat.lt_or_eq_of_le (none d inside apart)).imp id fun level => ⟨level, first d inside⟩
  | moved candidate apart nearer least =>
    refine .moved (List.mem_cons_of_mem c candidate) apart (Nat.lt_trans nearer near) ?_
    rintro d (_ | ⟨_, inside⟩) apart
    · exact .inl nearer
    · exact least d inside apart

theorem foldl_nearer (sorted : cs.Pairwise (· ≤ ·)) (start : String × Nat) :
    Scanned distance name cs start (cs.foldl (nearer distance name) start) := by
  induction cs generalizing start with
  | nil => exact .stayed fun c inside => absurd inside List.not_mem_nil
  | cons c cs ih =>
    obtain ⟨first, rest⟩ := List.pairwise_cons.mp sorted
    have scan := ih rest (nearer distance name start c)
    rw [List.foldl_cons]
    by_cases same : c = name
    · have skipped : nearer distance name start c = start := by simp [nearer, same]
      rw [skipped] at scan ⊢
      exact scan.skip fun other => absurd same other
    · by_cases near : distance name c < start.2
      · have taken : nearer distance name start c = (c, distance name c) := by simp [nearer, same, near]
        rw [taken] at scan ⊢
        exact scan.take same near first
      · have kept : nearer distance name start c = start := by simp [nearer, same, near]
        rw [kept] at scan ⊢
        exact scan.skip fun _ => Nat.le_of_not_lt near

/-- Of two candidates that are no farther than each other, there is only one. -/
theorem NoFarther.antisymm {c d : String} (left : NoFarther distance name c d) (right : NoFarther distance name d c) : c = d := by
  rcases left with less | ⟨level, before⟩
  · rcases right with more | ⟨level, -⟩
    · exact absurd less (Nat.lt_asymm more)
    · exact absurd level (Nat.ne_of_gt less)
  · rcases right with more | ⟨-, behind⟩
    · exact absurd level (Nat.ne_of_gt more)
    · exact String.le_antisymm before behind

/-- What a scan comes to depends only on which candidates there are. -/
theorem Scanned.unique {start one other : String × Nat} (same : ∀ c, c ∈ cs ↔ c ∈ ds) (left : Scanned distance name cs start one)
    (right : Scanned distance name ds start other) : one = other := by
  cases left with
  | stayed none =>
    cases right with
    | stayed _ => rfl
    | moved candidate other near _ => exact absurd near (Nat.not_lt.mpr (none _ ((same _).mpr candidate) other))
  | moved candidate other near least =>
    cases right with
    | stayed none => exact absurd near (Nat.not_lt.mpr (none _ ((same _).mp candidate) other))
    | moved candidate' other' _ least' =>
      rw [(least _ ((same _).mpr candidate') other').antisymm (least' _ ((same _).mp candidate) other)]

/-! ## The answer -/

/-- The scan that an answer is taken from. -/
def scan (distance : String → String → Nat) (name : String) (candidates : List String) : String × Nat :=
  (candidates.mergeSort fun a b => a ≤ b).foldl (nearer distance name) ("", suggestionLimit name + 1)

theorem nearest?_eq_scan (candidates : List String) : nearest? distance name candidates =
    if (scan distance name candidates).1.isEmpty then none else some (scan distance name candidates).1 := rfl

theorem scanned (candidates : List String) :
    Scanned distance name candidates ("", suggestionLimit name + 1) (scan distance name candidates) := by
  have sorted : (candidates.mergeSort fun a b => a ≤ b).Pairwise (· ≤ ·) := by
    refine (List.pairwise_mergeSort ?_ ?_ candidates).imp of_decide_eq_true
    · intro a b c first second
      exact decide_eq_true (String.le_trans (of_decide_eq_true first) (of_decide_eq_true second))
    · intro a b
      simpa using String.le_total a b
  have run : Scanned distance name _ _ (scan distance name candidates) :=
    foldl_nearer sorted ("", suggestionLimit name + 1)
  generalize scan distance name candidates = done at run
  cases run with
  | stayed none => exact .stayed fun c inside => none c (List.mem_mergeSort.mpr inside)
  | moved candidate other near least =>
    exact .moved (List.mem_mergeSort.mp candidate) other near fun c inside => least c (List.mem_mergeSort.mpr inside)

theorem nearest?_congr (same : ∀ c, c ∈ cs ↔ c ∈ ds) : nearest? distance name cs = nearest? distance name ds := by
  rw [nearest?_eq_scan, nearest?_eq_scan, (scanned cs).unique same (scanned ds)]

/-- No candidate is near, or the nearest is the answer. -/
theorem nearest?_cases (named : ∀ c ∈ cs, c ≠ "") :
    nearest? distance name cs = none ∧ (∀ c, ¬Near distance name cs c) ∨
    ∃ best, nearest? distance name cs = some best ∧ Near distance name cs best ∧
      ∀ c ∈ cs, c ≠ name → NoFarther distance name best c := by
  rw [nearest?_eq_scan]
  have run : Scanned distance name cs _ (scan distance name cs) := scanned cs
  generalize scan distance name cs = done at *
  cases run with
  | stayed none =>
    refine .inl ⟨rfl, ?_⟩
    rintro c ⟨inside, other, near⟩
    have far := none c inside other
    omega
  | @moved best candidate other near least =>
    have filled : best.isEmpty = false := by
      rw [← Bool.not_eq_true, String.isEmpty_iff]
      exact named best candidate
    exact .inr ⟨best, by rw [filled]; rfl, ⟨candidate, other, Nat.le_of_lt_succ near⟩, least⟩

/-! ## Reports -/

/-- How a report of a check can come out if the declared structs are listed in any order for it. -/
inductive Relisted (scope : Scope) : Diagnostic → Diagnostic → Prop where
  /-- A report that lists no structs. -/
  | other {d : Diagnostic} (code : d.code ≠ .unknownStruct) : Relisted scope d d
  | unknown {name : String} {listed : List String} (span : Span) (undeclared : scope.struct? name = none)
      (same : listed.Perm (scope.structs.map (·.name))) :
      Relisted scope (unknownStruct scope name span) (unknownStructAmong listed name span)

theorem Relisted.eq {scope : Scope} {d e : Diagnostic} (again : Relisted scope d e) : e = d := by
  cases again with
  | other _ => rfl
  | @unknown name listed span _ same =>
    have answer : suggest? name listed = suggest? name (scope.structs.map (·.name)) := nearest?_congr fun c => same.mem_iff
    rw [unknownStruct, unknownStructAmong, unknownStructAmong, answer]

variable {scope : Scope}

theorem Relisted.ofError {code : Code} {span : Span} {message : String} {notes : List Note} (other : code ≠ .unknownStruct) :
    Relisted scope (.ofError code span message notes) (.ofError code span message notes) := .other other

/-- Each of the reports comes out the same if the declared structs are listed as they were declared, and is told apart from
    those that do not list them. -/
def Listed (scope : Scope) (ds : List Diagnostic) : Prop := ∀ d ∈ ds, Relisted scope d d

theorem listed_nil : Listed scope [] := fun _ inside => absurd inside List.not_mem_nil

theorem listed_cons {d : Diagnostic} {ds : List Diagnostic} : Listed scope (d :: ds) ↔ Relisted scope d d ∧ Listed scope ds :=
  List.forall_mem_cons

theorem listed_append {ds es : List Diagnostic} : Listed scope (ds ++ es) ↔ Listed scope ds ∧ Listed scope es :=
  List.forall_mem_append

theorem listed_flatMap {α : Type} {rules : α → List Diagnostic} {xs : List α} (each : ∀ x ∈ xs, Listed scope (rules x)) :
    Listed scope (xs.flatMap rules) := by
  intro d inside
  obtain ⟨x, member, found⟩ := List.mem_flatMap.mp inside
  exact each x member d found

/-- A report that lists no structs is on its own. -/
theorem listed_one {code : Code} {span : Span} {message : String} {notes : List Note} (other : code ≠ .unknownStruct) :
    Listed scope [.ofError code span message notes] := listed_cons.mpr ⟨.ofError other, listed_nil⟩

theorem nameRule_listed (name : String) (span : Span) (role : Role) : Listed scope (nameRule name span role) := by
  unfold nameRule
  split
  · exact listed_nil
  · split
    · exact listed_nil
    · exact listed_one (by decide)

theorem structRule_listed (name : String) (span : Span) : Listed scope (structRule scope name span) := by
  unfold structRule
  split
  · exact listed_nil
  · next undeclared =>
    exact listed_cons.mpr ⟨.unknown span (by simpa using undeclared) (.refl _), listed_nil⟩

theorem typeRule_listed (t : TypeRef) : Listed scope (typeRule scope t) := by
  unfold typeRule
  split
  · exact structRule_listed _ _
  · exact listed_nil

mutual

theorem exprRules_listed : ∀ (e : Expr), Listed scope (exprRules scope e)
  | .ident _ _ | .lit _ _ | .absent _ | .hollow _ _ => listed_nil
  | .assign _ a b | .binary _ _ a b => listed_append.mpr ⟨exprRules_listed a, exprRules_listed b⟩
  | .call _ f args => listed_append.mpr ⟨exprRules_listed f, exprsRules_listed args⟩
  | .member _ t _ _ => exprRules_listed t
  | .unary _ _ x | .group _ x => exprRules_listed x
  | .structLit _ n ns fs =>
    listed_append.mpr ⟨listed_cons.mpr ⟨.ofError (by decide), structRule_listed n ns⟩, valuesRules_listed fs⟩

theorem exprsRules_listed : ∀ (es : List Expr), Listed scope (exprsRules scope es)
  | [] => listed_nil
  | x :: xs => listed_append.mpr ⟨exprRules_listed x, exprsRules_listed xs⟩

theorem valueRules_listed : ∀ (f : FieldInit), Listed scope (valueRules scope f)
  | .mk _ _ v => exprRules_listed v

theorem valuesRules_listed : ∀ (fs : List FieldInit), Listed scope (valuesRules scope fs)
  | [] => listed_nil
  | f :: fs => listed_append.mpr ⟨valueRules_listed f, valuesRules_listed fs⟩

end

theorem shadowingRule_listed (temps : List String) (f : FieldInit) : Listed scope (shadowingRule temps f) := by
  unfold shadowingRule
  split
  · exact listed_nil
  · exact listed_one (by decide)

theorem fieldNameRule_listed (decl : StructDecl) (temps : List String) (f : FieldInit) :
    Listed scope (fieldNameRule decl temps f) := by
  unfold fieldNameRule
  dsimp only
  split
  · exact listed_one (by decide)
  · split
    · exact listed_one (by decide)
    · exact listed_nil

theorem fieldsRules_listed (decl : StructDecl) : ∀ (temps : List String) (fs : List FieldInit),
    Listed scope (fieldsRules scope decl temps fs)
  | _, [] => listed_nil
  | temps, f :: fs => by
    have own : Listed scope (fieldNameRule decl temps f ++ exprRules scope f.value) :=
      listed_append.mpr ⟨fieldNameRule_listed decl temps f, exprRules_listed f.value⟩
    have shadowed := listed_append.mpr ⟨own, shadowingRule_listed (temps ++ [f.name]) f⟩
    exact listed_append.mpr ⟨shadowed, fieldsRules_listed decl (temps ++ [f.name]) fs⟩

theorem literalRules_listed (name : String) (nameSpan : Span) (struct : String) (structSpan : Span) (fs : List FieldInit) :
    Listed scope (literalRules scope name nameSpan struct structSpan fs) := by
  unfold literalRules
  split
  · exact valuesRules_listed fs
  · dsimp only
    refine listed_append.mpr ⟨listed_append.mpr ⟨fieldsRules_listed _ [] fs, ?gaps⟩, ?clash⟩
    case gaps =>
      split
      · exact listed_nil
      · exact listed_one (by decide)
    case clash =>
      split
      · exact listed_one (by decide)
      · exact listed_nil

theorem initRules_listed (name : String) (nameSpan : Span) (t : TypeRef) (value : Expr) :
    Listed scope (initRules scope name nameSpan t value) := by
  unfold initRules
  split
  · split
    · exact literalRules_listed name nameSpan _ _ _
    · exact listed_cons.mpr ⟨.ofError (by decide), valuesRules_listed _⟩
  · exact exprRules_listed value

mutual

theorem stmtRules_listed : ∀ (s : Stmt), Listed scope (stmtRules scope s)
  | .block _ ss => stmtsRules_listed ss
  | .expr _ x => exprRules_listed x
  | .cond _ t yes no =>
    listed_append.mpr ⟨listed_append.mpr ⟨exprRules_listed t, bodyRules_listed yes⟩, elseRules_listed no⟩
  | .ret _ none | .brk _ | .empty _ | .absent _ | .hollow _ _ => listed_nil
  | .ret _ (some x) => exprRules_listed x
  | .bind _ n ns t v =>
    listed_append.mpr ⟨listed_append.mpr ⟨nameRule_listed n ns .binding, typeRule_listed t⟩, initRules_listed n ns t v⟩
  | .loop _ b => bodyRules_listed b

theorem bodyRules_listed : ∀ (b : Body), Listed scope (bodyRules scope b)
  | .block _ ss => stmtsRules_listed ss
  | .stray _ s => stmtRules_listed s

theorem elseRules_listed : ∀ (no : Option Body), Listed scope (elseRules scope no)
  | none => listed_nil
  | some b => bodyRules_listed b

theorem stmtsRules_listed : ∀ (ss : List Stmt), Listed scope (stmtsRules scope ss)
  | [] => listed_nil
  | s :: ss => listed_append.mpr ⟨stmtRules_listed s, stmtsRules_listed ss⟩

end

theorem structFieldsRules_listed : ∀ (seen : List (String × Span)) (fs : List Param),
    Listed scope (structFieldsRules scope seen fs)
  | _, [] => listed_nil
  | seen, f :: fs => by
    rw [structFieldsRules]
    split
    · exact listed_cons.mpr ⟨.ofError (by decide), structFieldsRules_listed seen fs⟩
    · have own : Listed scope (nameRule f.name f.span .field ++ typeRule scope f.type) :=
        listed_append.mpr ⟨nameRule_listed f.name f.span .field, typeRule_listed f.type⟩
      exact listed_append.mpr ⟨own, structFieldsRules_listed (seen ++ [(f.name, f.span)]) fs⟩

theorem mainRule_listed (d : FnDecl) : Listed scope (mainRule d) := by
  unfold mainRule
  split
  · exact listed_nil
  · split
    · exact listed_one (by decide)
    · exact listed_nil

theorem itemRules_listed (i : Item) : Listed scope (itemRules scope i) := by
  cases i with
  | fn d =>
    have params : Listed scope (d.params.flatMap (paramRules scope)) :=
      listed_flatMap fun p _ => listed_append.mpr ⟨nameRule_listed p.name p.span .parameter, typeRule_listed p.type⟩
    have head := listed_append.mpr ⟨listed_append.mpr ⟨mainRule_listed d, params⟩, typeRule_listed d.ret⟩
    exact listed_append.mpr ⟨head, bodyRules_listed d.body⟩
  | struct d => exact structFieldsRules_listed [] d.fields
  | absent _ => exact listed_nil
  | hollow _ _ => exact listed_nil

theorem declareAll_listed : ∀ (known : Declared) (items : List Item), Listed scope (declareAll known items).2
  | _, [] => listed_nil
  | known, i :: items => by
    have named : Listed scope (itemNameRule i) := by
      cases i with
      | fn d => exact nameRule_listed d.name d.nameSpan .function
      | struct d => exact nameRule_listed d.name d.nameSpan .struct
      | absent _ => exact listed_nil
      | hollow _ _ => exact listed_nil
    have first : Listed scope (declare known i).2 := by
      unfold declare
      dsimp only
      split
      · exact named
      · exact listed_append.mpr ⟨named, listed_one (by decide)⟩
    exact listed_append.mpr ⟨first, declareAll_listed (declare known i).1 items⟩

theorem check_listed (f : File) (isProgram : Bool) : Listed (f.check isProgram).scope (f.check isProgram).found := by
  rw [f.check_scope, f.check_found]
  refine listed_append.mpr ⟨listed_append.mpr ⟨declareAll_listed {} f.items, ?items⟩, ?entry⟩
  case items => exact listed_flatMap fun i _ => itemRules_listed i
  case entry =>
    split
    · unfold entryRule
      split
      · exact listed_nil
      · exact listed_one (by decide)
    · exact listed_nil

/-- A check finds the same in whatever order the declared structs are listed for each of its reports. -/
theorem check_relisted {f : File} {isProgram : Bool} {ds : List Diagnostic}
    (again : List.Forall₂ (Relisted (f.check isProgram).scope) (f.check isProgram).found ds) : ds = (f.check isProgram).found := by
  generalize (f.check isProgram).found = found at again
  induction again with
  | nil => rfl
  | cons one _ ih => rw [one.eq, ih]

/-- A name is suggested if and only if some candidate other than the unknown name is within a third of its length in bytes,
    or within one edit, of it; and it is then the nearest of them, and of several the least. The answer depends only on
    which candidates there are, and so neither on their order nor on repetitions. Each report of a check that lists the
    declared structs is that on an unknown struct, and what a check finds is the same in whatever order they are listed for
    each of these. -/
theorem suggestions_least (distance : String → String → Nat) (name : String) (candidates : List String)
    (named : ∀ c ∈ candidates, c ≠ "") :
    ((nearest? distance name candidates).isSome ↔ ∃ c ∈ candidates, c ≠ name ∧ distance name c ≤ max (name.utf8ByteSize / 3) 1) ∧
    (∀ hint, nearest? distance name candidates = some hint ↔
      (hint ∈ candidates ∧ hint ≠ name ∧ distance name hint ≤ max (name.utf8ByteSize / 3) 1) ∧
      ∀ c ∈ candidates, c ≠ name →
        distance name hint < distance name c ∨ distance name hint = distance name c ∧ hint ≤ c) ∧
    (∀ others : List String, (∀ c, c ∈ others ↔ c ∈ candidates) →
      nearest? distance name others = nearest? distance name candidates) ∧
    ∀ (f : File) (isProgram : Bool),
      List.Forall₂ (Relisted (f.check isProgram).scope) (f.check isProgram).found (f.check isProgram).found ∧
      ∀ ds, List.Forall₂ (Relisted (f.check isProgram).scope) (f.check isProgram).found ds → ds = (f.check isProgram).found := by
  have self (f : File) (isProgram : Bool) :
      List.Forall₂ (Relisted (f.check isProgram).scope) (f.check isProgram).found (f.check isProgram).found :=
    List.forall₂_same.mpr (check_listed f isProgram)
  refine ⟨?_, ?_, fun others same => nearest?_congr same, fun f isProgram => ⟨self f isProgram, fun ds => check_relisted⟩⟩
  · rcases nearest?_cases named with ⟨missed, nowhere⟩ | ⟨best, found, near, -⟩
    · rw [missed]
      exact ⟨nofun, fun ⟨c, near⟩ => absurd near (nowhere c)⟩
    · rw [found]
      exact ⟨fun _ => ⟨best, near⟩, fun _ => rfl⟩
  · intro hint
    rcases nearest?_cases named with ⟨missed, nowhere⟩ | ⟨best, found, near, least⟩
    · rw [missed]
      exact ⟨nofun, fun both => absurd both.1 (nowhere hint)⟩
    · rw [found, Option.some.injEq]
      constructor
      · rintro rfl
        exact ⟨near, least⟩
      · rintro ⟨also, leastToo⟩
        exact NoFarther.antisymm (least hint also.1 also.2.1) (leastToo best near.1 near.2.1)

/-- Of two candidates that are one edit away, the lesser is suggested. -/
theorem suggestions_least_pont :
    (∀ c ∈ ["Pint", "Line", "Point"], c ≠ "") ∧ nearest? editDistance "Pont" ["Pint", "Line", "Point"] = some "Pint" := by
  have named : ∀ c ∈ ["Pint", "Line", "Point"], c ≠ "" := by decide
  have least := (suggestions_least editDistance "Pont" ["Pint", "Line", "Point"] named).2.1 "Pint"
  exact ⟨named, least.mpr (by decide)⟩

end PineLang.Check
