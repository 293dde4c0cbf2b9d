import Mathlib.Data.List.Forall2
import Mathlib.Data.List.MinMax
import PineLang.Proofs.FreeNames
import PineLang.Proofs.TypeNames

/-!
What a constructor does when it runs. Names mean what they mean in C: a local or a parameter if there is one of
the name, and otherwise what the name stands for at file scope, where structs, functions and variables share one
name space. A run of the constructor of a struct whose members have different names takes a new object from the
collector and gives every member the argument of its parameter, for all names that members can have; the one
name in its way is that of the struct itself (`constructor_builds_iff`).
-/
namespace PineLang.C

/-! ## Objects -/

/-- A value of a running constructor: one that it is given, the address of an object or of the collector, or the
    size of a struct. -/
inductive Value (V : Type) where
  | given (v : V)
  | object (address : Nat)
  | collector
  | size (struct : String)

/-- MemberValues with their values, once they have one. -/
abbrev MemberValues (V : Type) := List (String × Option (Value V))

/-- An object of a struct. -/
structure Object (V : Type) where
  struct : String
  members : MemberValues V

/-- The objects in use, with their addresses. -/
abbrev Objects (V : Type) := List (Nat × Object V)

/-- What a name can stand for at file scope. -/
inductive FileName where
  | struct (members : List String)
  | collector
  | allocator
  deriving DecidableEq

/-- What code runs in: the names at file scope, and how the collector chooses an address that is not in use. -/
structure World (V : Type) where
  names : String → Option FileName
  place : Objects V → Nat
  unused : ∀ h : Objects V, place h ∉ h.map (·.1)

section
variable {V : Type}

/-- Gives a value to the first member with a name. -/
def storeMember (f : String) (v : Value V) : MemberValues V → Option (MemberValues V)
  | [] => none
  | (m, old) :: rest => if m = f then some ((m, some v) :: rest) else (storeMember f v rest).map ((m, old) :: ·)

/-- Puts another object at an address in use. -/
def putObject (a : Nat) (o : Object V) : Objects V → Objects V
  | [] => []
  | (b, old) :: rest => if b = a then (b, o) :: rest else (b, old) :: putObject a o rest

/-! ## Running -/

namespace World
variable (w : World V)

/-- A name stands for what it stands for at file scope, if no variable has it. -/
def means (s : State (Value V) (Objects V)) (n : String) : Option FileName :=
  match s.view n with
  | some _ => none
  | none => w.names n

/-- The name stands for a struct. -/
def isStruct (s : State (Value V) (Objects V)) (n : String) : Bool :=
  match w.means s n with
  | some (.struct _) => true
  | _ => false

/-- Takes a new object of a struct from the collector. -/
def allocate (s : State (Value V) (Objects V)) (n : String) : Option (Value V × State (Value V) (Objects V)) :=
  match w.names n with
  | some (.struct ms) =>
    let a := w.place s.heap
    some (.object a, { s with heap := (a, ⟨n, ms.map (·, none)⟩) :: s.heap })
  | _ => none

/-- Gives a value to a member of the object at an address. -/
def fill (s : State (Value V) (Objects V)) (a : Nat) (f : String) (v : Value V) :
    Option (State (Value V) (Objects V)) := do
  let o ← s.heap.lookup a
  let ms ← storeMember f v o.members
  return { s with heap := putObject a { o with members := ms } s.heap }

mutual

/-- Evaluates an expression. There is no result where a name does not stand for what the expression takes it
    for. -/
@[simp] def eval (s : State (Value V) (Objects V)) : CExpr → Option (Value V × State (Value V) (Objects V))
  | .ident n => do
    let x ← s.view n
    let v ← x.value
    return (v, s)
  | .unary .address (.ident n) => if w.means s n = some .collector then some (.collector, s) else none
  | .sizeOf (.struct n) => if w.isStruct s n then some (.size n, s) else none
  | .cast t x => if t.structs.all (w.isStruct s) then eval s x else none
  | .call (.ident f) args => do
    let (vs, s) ← evalArgs s args
    match w.means s f, vs with
    | some .allocator, [.collector, .size n] => w.allocate s n
    | _, _ => none
  | .assign .set (.ident x) e => do
    let (v, s) ← eval s e
    if (s.view x).isSome then some (v, s.store x v) else none
  | .assign .set (.member (.ident x) .indirect f) e => do
    let (v, s) ← eval s e
    match (s.view x).bind (·.value) with
    | some (.object a) => (fill s a f v).map (v, ·)
    | _ => none
  | _ => none
termination_by structural x => x

/-- Evaluates arguments, the first one first. -/
def evalArgs (s : State (Value V) (Objects V)) :
    List CExpr → Option (List (Value V) × State (Value V) (Objects V))
  | [] => some ([], s)
  | x :: xs => do
    let (v, s) ← eval s x
    let (vs, s) ← evalArgs s xs
    return (v :: vs, s)
termination_by structural xs => xs

end

/-- Runs the statements of a function up to the first return. A scope declares no name twice. -/
@[simp] def exec (s : State (Value V) (Objects V)) : List CStmt → Option (Value V × State (Value V) (Objects V))
  | .var x t :: rest => if x ∉ s.names ∧ t.structs.all (w.isStruct s) then exec (s.declare x t) rest else none
  | .expr e :: rest => do
    let (_, s) ← w.eval s e
    exec s rest
  | .ret (some e) :: _ => w.eval s e
  | _ => none

end World

theorem State.view_eq_none_iff {s : State (Value V) (Objects V)} {n : String} : s.view n = none ↔ n ∉ s.names := by
  rw [State.view, List.lookup_eq_none_iff, State.names, List.mem_map]
  constructor
  · rintro apart ⟨x, inside, rfl⟩
    simpa using apart x inside
  · intro absent x inside
    simpa using fun same : n = x.1 => absent ⟨x, inside, same.symm⟩

theorem World.eval_set {w : World V} {s t : State (Value V) (Objects V)} {x : String} {e : CExpr} {v : Value V}
    (evaluated : w.eval s e = some (v, t)) (visible : x ∈ t.names) :
    w.eval s (.assign .set (.ident x) e) = some (v, t.store x v) := by
  have found : (t.view x).isSome := by
    rw [Option.isSome_iff_ne_none, Ne, State.view_eq_none_iff, not_not]
    exact visible
  simp [World.eval, evaluated, found]

/-! ## Filling an object -/

/-- The state with a further object. -/
def State.holding (s : State (Value V) (Objects V)) (a : Nat) (o : Object V) : State (Value V) (Objects V) :=
  { s with heap := (a, o) :: s.heap }

@[simp] theorem State.holding_view (s : State (Value V) (Objects V)) (a : Nat) (o : Object V) (n : String) :
    (s.holding a o).view n = s.view n := rfl

theorem storeMember_append {f : String} {v : Value V} {rest : MemberValues V} : ∀ {before : MemberValues V},
    f ∉ before.map (·.1) → storeMember f v (before ++ (f, none) :: rest) = some (before ++ (f, some v) :: rest)
  | [], _ => by simp [storeMember]
  | (m, old) :: before, apart => by
    rw [List.map_cons, List.mem_cons, not_or] at apart
    rw [List.cons_append, storeMember, if_neg (Ne.symm apart.1), storeMember_append apart.2]
    rfl

/-- The members with their values. -/
def MemberValues.of (ms : List String) (vs : List (Value V)) : MemberValues V := (ms.zip vs).map fun x => (x.1, some x.2)

namespace World
variable (w : World V)

theorem fill_holding (s : State (Value V) (Objects V)) (a : Nat) {struct f : String} {v : Value V}
    {before rest : MemberValues V} (apart : f ∉ before.map (·.1)) :
    fill (s.holding a ⟨struct, before ++ (f, none) :: rest⟩) a f v =
      some (s.holding a ⟨struct, before ++ (f, some v) :: rest⟩) := by
  simp [fill, State.holding, storeMember_append apart, putObject]

/-- The assignment of a variable to a member of the object that another variable holds. -/
theorem exec_store {s : State (Value V) (Objects V)} {x y f struct : String} {t u : CType} {a : Nat} {v : Value V}
    {before rest : MemberValues V} (apart : f ∉ before.map (·.1)) (target : s.view x = some ⟨t, some (.object a)⟩)
    (given : s.view y = some ⟨u, some v⟩) (more : List CStmt) :
    w.exec (s.holding a ⟨struct, before ++ (f, none) :: rest⟩)
        (C.set (.member (.ident x) .indirect f) (.ident y) :: more) =
      w.exec (s.holding a ⟨struct, before ++ (f, some v) :: rest⟩) more := by
  simp [exec, C.set, eval, given, target, fill_holding s a apart]

/-- Assigning variables to the members that have no value yet, one after the other, fills the object. -/
theorem exec_stores {s : State (Value V) (Objects V)} {x struct : String} {t : CType} {a : Nat}
    (target : s.view x = some ⟨t, some (.object a)⟩) (more : List CStmt) {ys : List String} {vs : List (Value V)}
    (given : List.Forall₂ (fun y v => ∃ u, s.view y = some ⟨u, some v⟩) ys vs) :
    ∀ {ms : List String} {before : MemberValues V}, ms.length = ys.length → ms.Nodup →
      (∀ m ∈ ms, m ∉ before.map (·.1)) →
      w.exec (s.holding a ⟨struct, before ++ ms.map (·, none)⟩)
          (ms.zipWith (fun m y => C.set (.member (.ident x) .indirect m) (.ident y)) ys ++ more) =
        w.exec (s.holding a ⟨struct, before ++ MemberValues.of ms vs⟩) more := by
  induction given with
  | nil =>
    intro ms before size _ _
    obtain rfl : ms = [] := List.length_eq_zero_iff.mp size
    rfl
  | @cons y v ys vs here _ ih =>
    intro ms before size distinct apart
    obtain ⟨m, ms, rfl⟩ := List.exists_cons_of_length_eq_add_one size
    obtain ⟨u, given⟩ := here
    rw [List.forall_mem_cons] at apart
    rw [List.nodup_cons] at distinct
    have later : ∀ n ∈ ms, n ∉ (before ++ [(m, some v)]).map (·.1) := by
      intro n inside
      rw [List.map_append, List.mem_append, not_or]
      exact ⟨apart.2 n inside, by rintro again; cases List.mem_singleton.mp again; exact distinct.1 inside⟩
    have rest := ih (by simpa using size) distinct.2 later
    rw [List.zipWith_cons_cons, List.cons_append, List.map_cons, exec_store w apart.1 target given]
    simpa [MemberValues.of] using rest

end World

/-! ## Entering a function -/

/-- The state in which the body of a function starts. -/
def State.entry (ps : List CParam) (vs : List (Value V)) (h : Objects V) : State (Value V) (Objects V) :=
  ⟨(ps.zip vs).map fun x => (x.1.name, ⟨x.1.type, some x.2⟩), h⟩

theorem State.entry_names {ps : List CParam} {vs : List (Value V)} (size : vs.length = ps.length) (h : Objects V) :
    (State.entry ps vs h).names = ps.map (·.name) := by
  have firsts : (ps.zip vs).map (·.1) = ps := List.map_fst_zip (Nat.le_of_eq size.symm)
  conv_rhs => rw [← firsts, List.map_map]
  simp only [State.names, State.entry, List.map_map]
  rfl

/-- Parameters with different names hold their arguments. -/
theorem State.entry_view {ps : List CParam} {vs : List (Value V)} (size : vs.length = ps.length)
    (distinct : (ps.map (·.name)).Nodup) (h : Objects V) :
    List.Forall₂ (fun p v => (State.entry ps vs h).view p.name = some ⟨p.type, some v⟩) ps vs := by
  rw [← State.entry_names size h] at distinct
  rw [List.forall₂_iff_zip]
  refine ⟨size.symm, fun {p v} inside => ?_⟩
  rw [State.view, ← List.append_nil (State.entry ps vs h).vars]
  exact lookup_of_mem distinct (List.mem_map_of_mem (f := fun x => (x.1.name, _)) inside)

end
end PineLang.C

namespace PineLang.Lower
open C (CType CExpr CStmt CParam Local State Value Objects World FileName)

/-! ## The constructor -/

/-- At file scope stands the struct, and what the runtime declares unless the struct has its name. -/
def Layout.InScope (l : Layout) (names : String → Option FileName) : Prop :=
  names l.name = some (.struct (l.members.map (·.name))) ∧
    (C.collector ≠ l.name → names C.collector = some .collector) ∧
    (allocator ≠ l.name → names allocator = some .allocator)

/-- The statements of the constructor. -/
def Layout.body (l : Layout) : List CStmt :=
  .var l.target (.ptr (.struct l.name)) :: C.set (.ident l.target) l.allocation ::
    ((l.members.map (·.name)).zipWith (fun m y => C.set (.member (.ident l.target) .indirect m) (.ident y))
      (l.params.map (·.name)) ++ [CStmt.ret (some (.ident l.target))])

/-- The struct and the runtime, with a collector that places an object behind all others. -/
def Layout.world (l : Layout) (V : Type) : World V where
  names n :=
    if n = l.name then some (.struct (l.members.map (·.name)))
    else if n = C.collector then some .collector
    else if n = allocator then some .allocator
    else none
  place h := (h.map (·.1)).foldr max 0 + 1
  unused _ inside := Nat.not_succ_le_self _ (List.le_max_of_le' 0 inside (Nat.le_refl _))

theorem Layout.world_inScope (l : Layout) (V : Type) : l.InScope (l.world V).names := by
  have apart : allocator ≠ C.collector := by decide
  refine ⟨by simp [world], fun other => ?_, fun other => ?_⟩
  · simp [world, other]
  · simp [world, other, apart]

theorem constructor_eq (l : Layout) :
    constructor l = .fn (constructorName l.name) l.params (.ptr (.struct l.name)) (some l.body) := by
  unfold constructor Layout.body
  simp only [List.map_zip_eq_zipWith, List.zipWith_map]
  rfl

/-- The constructor declares its one local. -/
theorem Layout.body_declared (l : Layout) : l.body.flatMap CStmt.declared = [l.target] := by
  have stores (ms ps : List String) :
      (ms.zipWith (fun m y => C.set (.member (.ident l.target) .indirect m) (.ident y)) ps).flatMap CStmt.declared =
        [] := by
    induction ms generalizing ps with
    | nil => rfl
    | cons m ms ih =>
      cases ps with
      | nil => rfl
      | cons y ys => exact ih ys
  rw [Layout.body, List.flatMap_cons, List.flatMap_cons, List.flatMap_append, stores]
  rfl

/-! ## Its run -/

section
variable {V : Type} {l : Layout} {w : World V} {s : State (Value V) (Objects V)}

/-- The name of the struct stands for it, unless a variable has the name. -/
theorem means_struct (scope : l.InScope w.names) :
    w.means s l.name = if s.view l.name = none then some (.struct (l.members.map (·.name))) else none := by
  cases seen : s.view l.name <;> simp [World.means, seen, scope.1]

theorem isStruct_iff (scope : l.InScope w.names) : w.isStruct s l.name = true ↔ s.view l.name = none := by
  rw [World.isStruct, means_struct scope]
  cases s.view l.name <;> simp

/-- The runtime's names stand for what the runtime declares, if neither the struct nor a variable has them. -/
theorem means_runtime (scope : l.InScope w.names) (other : l.name ∉ runtimeNames)
    (seen : ∀ n ∈ runtimeNames, s.view n = none) :
    w.means s C.collector = some .collector ∧ w.means s allocator = some .allocator := by
  simp only [runtimeNames, List.mem_cons, List.not_mem_nil, or_false, not_or] at other
  simp [World.means, seen C.collector (by simp [runtimeNames]), seen allocator (by simp [runtimeNames]),
    scope.2.1 (Ne.symm other.1), scope.2.2 (Ne.symm other.2)]

/-- Where no variable hides what the allocation refers to, it takes a new object. -/
theorem eval_allocation (scope : l.InScope w.names) (other : l.name ∉ runtimeNames) (own : s.view l.name = none)
    (seen : ∀ n ∈ runtimeNames, s.view n = none) : w.eval s l.allocation = some (.object (w.place s.heap),
      s.holding (w.place s.heap) ⟨l.name, (l.members.map (·.name)).map (·, none)⟩) := by
  have struct := (isStruct_iff scope).mpr own
  obtain ⟨collector, allocate⟩ := means_runtime scope other seen
  simp [Layout.allocation, C.call, World.eval, World.evalArgs, CType.structs, struct, collector, allocate,
    World.allocate, scope.1, State.holding]

/-- The allocation has no result where the name of the struct does not stand for the struct alone. -/
theorem eval_allocation_none (scope : l.InScope w.names) (clash : s.view l.name ≠ none ∨ l.name ∈ runtimeNames) :
    w.eval s l.allocation = none := by
  by_cases own : s.view l.name = none
  · have meant : w.means s l.name = some (.struct (l.members.map (·.name))) := by rw [means_struct scope, if_pos own]
    have reserved := clash.resolve_left (not_not_intro own)
    simp only [runtimeNames, List.mem_cons, List.not_mem_nil, or_false] at reserved
    rcases reserved with same | same <;> rw [same] at meant
    · simp [Layout.allocation, C.call, World.eval, World.evalArgs, meant]
    · by_cases collector : w.means s C.collector = some .collector <;> by_cases struct : w.isStruct s l.name <;>
        simp [Layout.allocation, C.call, World.eval, World.evalArgs, meant, collector, struct]
  · have struct : w.isStruct s l.name = false := by
      rw [← Bool.not_eq_true, isStruct_iff scope]
      exact own
    simp [Layout.allocation, World.eval, CType.structs, struct]

/-- The local of the constructor, once it holds the object at an address. -/
def Layout.variable (l : Layout) (a : Nat) : String × Local (Value V) :=
  (l.target, ⟨.ptr (.struct l.name), some (.object a)⟩)

/-- The first statements of the constructor declare the local and assign it the new object. -/
theorem exec_body (scope : l.InScope w.names) (other : l.name ∉ runtimeNames) (own : l.name ∉ l.target :: s.names)
    (seen : ∀ n ∈ runtimeNames, n ∉ l.target :: s.names) (target : l.target ∉ s.names) :
    w.exec s l.body = w.exec ((s.push [l.variable (w.place s.heap)]).holding
      (w.place s.heap) ⟨l.name, (l.members.map (·.name)).map (·, none)⟩) (l.body.drop 2) := by
  have before : w.isStruct s l.name = true :=
    (isStruct_iff scope).mpr (State.view_eq_none fun inside => own (List.mem_cons_of_mem _ inside))
  have allocated := eval_allocation (s := s.declare l.target (.ptr (.struct l.name))) scope other
    (State.view_eq_none own) fun n reserved => State.view_eq_none (seen n reserved)
  have assigned : w.eval (s.declare l.target (.ptr (.struct l.name))) (.assign .set (.ident l.target) l.allocation) =
      some (.object (w.place s.heap), (s.push [l.variable (w.place s.heap)]).holding
        (w.place s.heap) ⟨l.name, (l.members.map (·.name)).map (·, none)⟩) := by
    rw [World.eval_set allocated (List.mem_cons_self ..)]
    simp [Layout.variable, State.declare, State.holding, State.store, State.push, C.storeIn]
  rw [Layout.body, World.exec, if_pos ⟨target, by simpa [CType.structs] using before⟩, C.set, World.exec, assigned]
  rfl

/-- The constructor has no result where the name of the struct does not stand for the struct alone. -/
theorem exec_body_none (scope : l.InScope w.names) (clash : l.name ∈ runtimeNames ∨ l.name ∈ l.target :: s.names) :
    w.exec s l.body = none := by
  by_cases own : l.name ∈ s.names
  · have hidden : w.isStruct s l.name = false := by
      rw [← Bool.not_eq_true, isStruct_iff scope, State.view_eq_none_iff]
      exact not_not_intro own
    simp [Layout.body, World.exec, CType.structs, hidden]
  · have inner : (s.declare l.target (.ptr (.struct l.name))).view l.name ≠ none ∨ l.name ∈ runtimeNames := by
      rw [Ne, State.view_eq_none_iff, not_not]
      exact clash.symm
    simp [Layout.body, World.exec, C.set, World.eval, eval_allocation_none scope inner]

end

/-! ## The constructor's run -/

section
variable {V : Type} {l : Layout} {w : World V}

/-- Where the struct has a name of its own, calling its constructor makes a new object whose members hold the
    arguments. -/
theorem exec_entry (scope : l.InScope w.names) (distinct : (l.members.map (·.name)).Nodup)
    (own : l.name ∉ runtimeNames ++ l.target :: l.params.map (·.name)) {vs : List (Value V)}
    (size : vs.length = l.params.length) (h : Objects V) :
    ∃ s, w.exec (.entry l.params vs h) l.body = some (.object (w.place h), s) ∧
      s.heap = (w.place h, ⟨l.name, .of (l.members.map (·.name)) vs⟩) :: h := by
  have names := State.entry_names size h
  have given := State.entry_view size (Layout.params_nodup distinct) h
  generalize entered : State.entry l.params vs h = s at names given
  rw [List.mem_append, not_or] at own
  have target : l.target ∉ s.names := by
    rw [names]
    exact fun inside => l.target_settles.notMem (List.mem_append_right _ inside)
  have seen : ∀ n ∈ runtimeNames, n ∉ l.target :: s.names := by
    rintro n reserved hides
    rcases List.mem_cons.mp hides with rfl | isParam
    · exact l.target_notMem_runtime reserved
    · obtain ⟨p, inside, rfl⟩ := List.mem_map.mp (names ▸ isParam)
      exact l.params_notMem_runtime p inside reserved
  rw [exec_body scope own.1 (names ▸ own.2) seen target]
  generalize made : s.push [l.variable (w.place s.heap)] = t
  have heap : s.heap = h ∧ t.heap = h := by
    rw [← made, ← entered]
    exact ⟨rfl, rfl⟩
  have object : t.view l.target = some (l.variable (w.place h)).2 := by
    rw [← made, ← heap.1]
    exact List.lookup_cons_self
  -- the local hides no parameter from the stores
  have held : List.Forall₂ (fun y v => ∃ u, t.view y = some ⟨u, some v⟩) (l.params.map (·.name)) vs := by
    rw [List.forall₂_map_left_iff]
    refine given.imp fun p v seen => ⟨p.type, ?_⟩
    rw [← made, State.view_push, seen]
    intro same
    have isTarget : p.name = l.target := List.mem_singleton.mp same
    rw [isTarget, State.view_eq_none target] at seen
    cases seen
  have size' : (l.members.map (·.name)).length = (l.params.map (·.name)).length := by
    rw [List.length_map, List.length_map]
    exact l.params_forall₂.length_eq
  have filled : w.exec (t.holding (w.place h) ⟨l.name, [] ++ (l.members.map (·.name)).map (·, none)⟩) _ =
      w.exec (t.holding (w.place h) ⟨l.name, [] ++ C.MemberValues.of (l.members.map (·.name)) vs⟩) _ :=
    World.exec_stores w object [.ret (some (.ident l.target))] held size' distinct (by simp)
  rw [List.nil_append, List.nil_append] at filled
  rw [heap.1]
  refine ⟨t.holding (w.place h) ⟨l.name, .of (l.members.map (·.name)) vs⟩, filled.trans ?_, ?_⟩
  · simp [World.exec, World.eval, object, Layout.variable]
  · rw [State.holding, heap.2]

end

/-- The constructor of a struct whose members have different names, whatever these are. Its parameters are the
    members, renamed where they have one of the runtime's names, by a loop that stops at a free name; its one
    local gets its name from such a loop, too. No two of these have the same name, and none has one of the
    runtime's. Calling it returns a new object whose members hold the arguments and leaves the other objects
    alone, exactly if nothing the constructor refers to or declares has the name of the struct. -/
theorem constructor_builds_iff (l : Layout) (distinct : (l.members.map (·.name)).Nodup) :
    ∃ params target body, constructor l = .fn (constructorName l.name) params (.ptr (.struct l.name)) (some body) ∧
      body.flatMap CStmt.declared = [target] ∧
      Renamed (C.collector :: allocator :: l.members.map (·.name)) l.members params ∧
      Settles (l.members.map (·.name) ++ params.map (·.name)) localCandidate 0 target ∧
      List.Forall₂ (fun m p => p.type = m.type ∧ (p.name ≠ m.name ↔ m.name ∈ [C.collector, allocator]))
        l.members params ∧
      (params.map (·.name)).Nodup ∧ (∀ p ∈ params, p.name ∉ [C.collector, allocator]) ∧
      target ∉ C.collector :: allocator :: (l.members.map (·.name) ++ params.map (·.name)) ∧
      ∀ (V : Type) (w : World V) (vs : List (Value V)) (h : Objects V), l.InScope w.names →
        vs.length = params.length →
        ((∃ a s, a ∉ h.map (·.1) ∧ w.exec (.entry params vs h) body = some (.object a, s) ∧
            s.heap = (a, ⟨l.name, .of (l.members.map (·.name)) vs⟩) :: h) ↔
          l.name ∉ C.collector :: allocator :: target :: params.map (·.name)) := by
  refine ⟨l.params, l.target, l.body, constructor_eq l, ?_, l.params_renamed, l.target_settles,
    l.params_forall₂.imp fun m p each => ⟨each.1, each.2.2⟩, Layout.params_nodup distinct, l.params_notMem_runtime,
    ?_, ?_⟩
  · exact l.body_declared
  · intro taken
    rcases List.mem_append.mp (show l.target ∈ runtimeNames ++ l.named from taken) with reserved | named
    · exact l.target_notMem_runtime reserved
    · exact l.target_settles.notMem named
  · intro V w vs h scope size
    constructor
    · rintro ⟨a, s, -, run, -⟩ clash
      rw [show C.collector :: allocator :: l.target :: l.params.map (·.name) =
        runtimeNames ++ l.target :: l.params.map (·.name) from rfl, List.mem_append, ← State.entry_names size h] at clash
      rw [exec_body_none scope clash] at run
      cases run
    · intro own
      obtain ⟨s, run, made⟩ := exec_entry scope distinct own size h
      exact ⟨_, s, w.unused h, run, made⟩

/-- A struct with the runtime's names, an underscored one and that of the local among its fields. -/
def crowded : Layout where
  name := "Point"
  members := [⟨"gc", .i64⟩, ⟨"gc_", .i64⟩, ⟨"gc_malloc", .i64⟩, ⟨"n", .i64⟩]

theorem constructor_builds_crowded : ∃ params body, constructor crowded =
      .fn "_Point__internal__new_gc" params (.ptr (.struct "Point")) (some body) ∧
    params.map (·.name) = ["gc__", "gc_", "gc_malloc_", "n"] ∧ body.flatMap CStmt.declared = ["n1"] ∧
    ∃ a s, (crowded.world Nat).exec (.entry params [.given 7, .given 8, .given 9, .given 10] []) body =
        some (.object a, s) ∧
      s.heap = [(a, ⟨"Point", [("gc", some (.given 7)), ("gc_", some (.given 8)), ("gc_malloc", some (.given 9)),
        ("n", some (.given 10))]⟩)] := by
  have distinct : (crowded.members.map (·.name)).Nodup := by decide
  obtain ⟨params, target, body, made, declared, -, -, -, -, -, -, runs⟩ := constructor_builds_iff crowded distinct
  have names : crowded.params.map (·.name) = ["gc__", "gc_", "gc_malloc_", "n"] ∧ crowded.target = "n1" := by
    decide
  obtain ⟨-, rfl, -, same⟩ := C.Decl.fn.inj ((constructor_eq crowded).symm.trans made)
  obtain rfl := Option.some.inj same
  obtain rfl : crowded.target = target := List.singleton_inj.mp (crowded.body_declared.symm.trans declared)
  have own : crowded.name ∉ C.collector :: allocator :: crowded.target :: crowded.params.map (·.name) := by
    rw [names.1, names.2]
    decide
  obtain ⟨a, s, -, run, heap⟩ := (runs Nat (crowded.world Nat) [.given 7, .given 8, .given 9, .given 10] []
    (crowded.world_inScope Nat) (by decide)).mpr own
  exact ⟨_, _, made, names.1, names.2 ▸ declared, a, s, run, heap⟩

/-- A struct that has the name of its constructor's local. -/
def asLocal : Layout where
  name := "n"
  members := [⟨"a", .i64⟩]

/-- Its constructor refers to the local where it means the struct, so there is no new object. -/
theorem constructor_hides_struct : (asLocal.members.map (·.name)).Nodup ∧ asLocal.InScope (asLocal.world Nat).names ∧
    ∃ params body, constructor asLocal = .fn (constructorName "n") params (.ptr (.struct "n")) (some body) ∧
      params.length = 1 ∧ body.flatMap CStmt.declared = ["n"] ∧
      (asLocal.world Nat).exec (.entry params [.given 7] []) body = none := by
  have target : asLocal.target = "n" := by decide
  have hidden : asLocal.name ∈ asLocal.target :: (State.entry asLocal.params [.given 7] []).names :=
    target ▸ List.mem_cons_self ..
  exact ⟨List.nodup_singleton _, asLocal.world_inScope Nat, asLocal.params, asLocal.body, constructor_eq asLocal, rfl,
    target ▸ asLocal.body_declared, exec_body_none (V := Nat) (asLocal.world_inScope Nat) (.inr hidden)⟩

end PineLang.Lower
