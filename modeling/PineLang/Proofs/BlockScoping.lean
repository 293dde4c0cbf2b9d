import Mathlib.Data.List.Forall2
import PineLang.Proofs.LoweredSites

/-!
Straight-line C code under block scoping. A state holds the variables that are visible or hidden, the
innermost first, and a heap; leaving a block drops the variables that were declared in it. What an
expression does is left to a semantics that is only bound to the variables the expression mentions
(`Semantics`), so calls may do anything to the heap and no order or type of operands is fixed.

Running a declaration and an assignment of a temporary, on top of other temporaries that the value does
not mention, evaluates the value as if none of them were there (`runs_temporary`).
-/
namespace PineLang.C

/-! ## States -/

/-- A variable: its type, and its value once it has one. -/
structure Local (V : Type) where
  type : CType
  value : Option V

/-- The variables, the innermost first, and everything else that code can change. -/
structure State (V H : Type) where
  vars : List (String × Local V)
  heap : H

/-- What evaluating an expression gives: its value, the variables it assigns with their new values in
    the order of the assignments, and the heap it leaves. -/
structure Outcome (V H : Type) where
  value : V
  writes : List (String × V)
  heap : H

section
variable {V H : Type}

/-- Gives a value to the innermost variable with a name. -/
@[grind =] def storeIn (n : String) (v : V) : List (String × Local V) → List (String × Local V)
  | [] => []
  | (m, l) :: rest => if m = n then (m, { l with value := some v }) :: rest else (m, l) :: storeIn n v rest

/-- Gives values to variables, one after the other. -/
def storeAll (writes : List (String × V)) (vars : List (String × Local V)) : List (String × Local V) :=
  writes.foldl (fun vars w => storeIn w.1 w.2 vars) vars

namespace State

/-- The names of the variables. -/
def names (s : State V H) : List String := s.vars.map (·.1)

/-- The variables with their types. -/
def types (s : State V H) : List (String × CType) := s.vars.map fun x => (x.1, x.2.type)

/-- The variable that a name stands for. -/
def view (s : State V H) (n : String) : Option (Local V) := s.vars.lookup n

/-- The state after a declaration. The variable has no value yet. -/
def declare (s : State V H) (n : String) (t : CType) : State V H := { s with vars := (n, ⟨t, none⟩) :: s.vars }

/-- The state after an assignment. -/
def store (s : State V H) (n : String) (v : V) : State V H := { s with vars := storeIn n v s.vars }

/-- The state after an evaluation. -/
def after (s : State V H) (o : Outcome V H) : State V H := ⟨storeAll o.writes s.vars, o.heap⟩

/-- The state after a block that was entered with so many variables. -/
def leave (s : State V H) (entered : Nat) : State V H := { s with vars := s.vars.drop (s.vars.length - entered) }

/-- The state with further variables inside those it has. -/
def push (s : State V H) (inner : List (String × Local V)) : State V H := { s with vars := inner ++ s.vars }

end State

/-! ## Runs -/

/-- A semantics of expressions. An evaluation sees and assigns only variables that the expression
    mentions; besides them there is the heap. Two forms have the meaning they have in C: the assignment
    to a variable, whose type the value is converted to, and the call of a function that no variable
    hides, with variables as arguments. -/
structure Semantics (V H : Type) where
  /-- Evaluating an expression where names stand for these variables, with this heap, can end so. -/
  Evaluates : CExpr → (String → Option (Local V)) → H → Outcome V H → Prop
  /-- Calling a function with these arguments, with this heap, can return so and leave this heap. -/
  Calls : String → List V → H → V → H → Prop
  /-- The value as one of another type. -/
  convert : CType → V → V
  reads : ∀ {e view view' h o}, (∀ n ∈ e.idents, view n = view' n) → Evaluates e view h o → Evaluates e view' h o
  writes : ∀ {e view h o}, Evaluates e view h o → ∀ w ∈ o.writes, w.1 ∈ e.idents
  assign : ∀ {x e view h o l}, view x = some l → (Evaluates (.assign .set (.ident x) e) view h o ↔
    ∃ inner, Evaluates e view h inner ∧
      o = ⟨convert l.type inner.value, inner.writes ++ [(x, convert l.type inner.value)], inner.heap⟩)
  call : ∀ {f xs vs view h o}, view f = none →
    List.Forall₂ (fun x v => ∃ t, view x = some ⟨t, some v⟩) xs vs →
    (Evaluates (C.call f (xs.map .ident)) view h o ↔ ∃ r h', Calls f vs h r h' ∧ o = ⟨r, [], h'⟩)

namespace Semantics
variable (sem : Semantics V H)

/-- Running statements without jumps from a state can end in another. A block drops its variables. -/
inductive Runs : List CStmt → State V H → State V H → Prop where
  | done {s} : Runs [] s s
  | empty {rest s s'} : Runs rest s s' → Runs (.empty :: rest) s s'
  | var {n t rest s s'} : Runs rest (s.declare n t) s' → Runs (.var n t :: rest) s s'
  | expr {e o rest s s'} : sem.Evaluates e s.view s.heap o → Runs rest (s.after o) s' → Runs (.expr e :: rest) s s'
  | block {inner rest s t s'} : Runs inner s t → Runs rest (t.leave s.vars.length) s' →
      Runs (.block inner :: rest) s s'

/-- Evaluating expressions once each, one after the other, can give these values and end in this state. -/
def InOrder : List CExpr → State V H → List V → State V H → Prop
  | [], s, vs, s' => vs = [] ∧ s' = s
  | e :: es, s, vs, s' => ∃ o more, sem.Evaluates e s.view s.heap o ∧ vs = o.value :: more ∧
      InOrder es (s.after o) more s'

end Semantics

/-! ## Variables -/

/-- An assignment changes neither the names nor the types. -/
theorem storeIn_types (n : String) (v : V) : ∀ vars : List (String × Local V),
    (storeIn n v vars).map (fun x => (x.1, x.2.type)) = vars.map fun x => (x.1, x.2.type)
  | [] => rfl
  | (m, l) :: rest => by
    rw [storeIn]
    split
    · rfl
    · rw [List.map_cons, List.map_cons, storeIn_types n v rest]

theorem storeAll_types : ∀ (writes : List (String × V)) (vars : List (String × Local V)),
    (storeAll writes vars).map (fun x => (x.1, x.2.type)) = vars.map fun x => (x.1, x.2.type)
  | [], _ => rfl
  | w :: writes, vars => by
    rw [storeAll, List.foldl_cons, ← storeAll, storeAll_types writes, storeIn_types]

theorem storeAll_append (ws ws' : List (String × V)) (vars : List (String × Local V)) :
    storeAll (ws ++ ws') vars = storeAll ws' (storeAll ws vars) := List.foldl_append ..

/-- An assignment to a variable that is not among the inner ones passes over them. -/
theorem storeIn_pass {n : String} {v : V} {vars : List (String × Local V)} : ∀ {inner : List (String × Local V)},
    n ∉ inner.map (·.1) → storeIn n v (inner ++ vars) = inner ++ storeIn n v vars
  | [], _ => rfl
  | (m, l) :: inner, other => by
    rw [List.map_cons, List.mem_cons, not_or] at other
    rw [List.cons_append, storeIn, if_neg (Ne.symm other.1), storeIn_pass other.2, List.cons_append]

theorem storeAll_pass {inner : List (String × Local V)} : ∀ {writes : List (String × V)}
    {vars : List (String × Local V)}, (∀ w ∈ writes, w.1 ∉ inner.map (·.1)) →
      storeAll writes (inner ++ vars) = inner ++ storeAll writes vars
  | [], _, _ => rfl
  | w :: writes, vars, other => by
    rw [List.forall_mem_cons] at other
    rw [storeAll, List.foldl_cons, storeIn_pass other.1, ← storeAll, storeAll_pass other.2, storeAll, storeAll,
      List.foldl_cons]

theorem lookup_pass {n : String} {vars : List (String × Local V)} : ∀ {inner : List (String × Local V)},
    n ∉ inner.map (·.1) → (inner ++ vars).lookup n = vars.lookup n
  | [], _ => rfl
  | (m, l) :: inner, other => by
    rw [List.map_cons, List.mem_cons, not_or] at other
    have apart : (n == m) = false := by simpa using other.1
    rw [List.cons_append, List.lookup_cons, apart]
    exact lookup_pass other.2

/-- A name that belongs to one variable stands for it. -/
theorem lookup_of_mem {n : String} {l : Local V} {rest : List (String × Local V)} :
    ∀ {vars : List (String × Local V)}, (vars.map (·.1)).Nodup → (n, l) ∈ vars →
      (vars ++ rest).lookup n = some l
  | [], _, member => by cases member
  | (m, k) :: vars, distinct, member => by
    rw [List.map_cons, List.nodup_cons] at distinct
    rw [List.cons_append, List.lookup_cons]
    rcases List.mem_cons.mp member with same | later
    · cases same
      simp
    · have apart : (n == m) = false := by
        have other : n ≠ m := by
          rintro rfl
          exact distinct.1 (List.mem_map.mpr ⟨_, later, rfl⟩)
        simpa using other
      rw [apart]
      exact lookup_of_mem distinct.2 later

theorem lookup_type (n : String) : ∀ vars : List (String × Local V),
    (vars.lookup n).map (·.type) = (vars.map fun x => (x.1, x.2.type)).lookup n
  | [] => rfl
  | (m, l) :: rest => by
    rw [List.lookup_cons, List.map_cons, List.lookup_cons]
    cases n == m with
    | true => rfl
    | false => exact lookup_type n rest

namespace State

theorem view_push {s : State V H} {inner : List (String × Local V)} {n : String} (other : n ∉ inner.map (·.1)) :
    (s.push inner).view n = s.view n := lookup_pass other

theorem view_eq_none {s : State V H} {n : String} (absent : n ∉ s.names) : s.view n = none := by
  unfold State.view
  rw [← List.append_nil s.vars, lookup_pass absent]
  rfl

/-- What type a name has does not depend on the values. -/
theorem view_type (s : State V H) (n : String) : (s.view n).map (·.type) = s.types.lookup n := lookup_type n s.vars

theorem vars_length (s : State V H) : s.vars.length = s.types.length := (List.length_map ..).symm

theorem names_eq (s : State V H) : s.names = s.types.map (·.1) := by
  unfold State.names State.types
  rw [List.map_map]
  rfl

@[simp] theorem push_nil (s : State V H) : s.push [] = s := rfl

@[simp] theorem push_heap (s : State V H) (inner : List (String × Local V)) : (s.push inner).heap = s.heap := rfl

theorem push_declare (s : State V H) (inner : List (String × Local V)) (n : String) (t : CType) :
    (s.push inner).declare n t = s.push ((n, ⟨t, none⟩) :: inner) := rfl

@[simp] theorem after_types (s : State V H) (o : Outcome V H) : (s.after o).types = s.types := storeAll_types ..

@[simp] theorem store_types (s : State V H) (n : String) (v : V) : (s.store n v).types = s.types := storeIn_types ..

/-- An evaluation that assigns none of the inner variables leaves them as they are. -/
theorem push_after {s : State V H} {inner : List (String × Local V)} {o : Outcome V H}
    (other : ∀ w ∈ o.writes, w.1 ∉ inner.map (·.1)) : (s.push inner).after o = (s.after o).push inner := by
  unfold State.after State.push
  rw [storeAll_pass other]

/-- Leaving a block restores the variables outside, as they are by then. -/
theorem leave_push {s : State V H} {entered : Nat} (inner : List (String × Local V))
    (same : s.vars.length = entered) : (s.push inner).leave entered = s := by
  unfold State.leave State.push
  simp [← same]

end State

namespace Semantics
variable {sem : Semantics V H}

theorem runs_nil_iff {s s' : State V H} : sem.Runs [] s s' ↔ s' = s := by
  constructor
  · rintro ⟨⟩
    rfl
  · rintro rfl
    exact .done

theorem runs_var_iff {n : String} {t : CType} {rest : List CStmt} {s s' : State V H} :
    sem.Runs (.var n t :: rest) s s' ↔ sem.Runs rest (s.declare n t) s' := by
  constructor
  · rintro ⟨⟩
    assumption
  · exact .var

theorem runs_expr_iff {e : CExpr} {rest : List CStmt} {s s' : State V H} :
    sem.Runs (.expr e :: rest) s s' ↔ ∃ o, sem.Evaluates e s.view s.heap o ∧ sem.Runs rest (s.after o) s' := by
  constructor
  · rintro ⟨⟩
    exact ⟨_, ‹_›, ‹_›⟩
  · rintro ⟨o, evaluated, run⟩
    exact .expr evaluated run

theorem runs_block_iff {inner rest : List CStmt} {s s' : State V H} :
    sem.Runs (.block inner :: rest) s s' ↔ ∃ t, sem.Runs inner s t ∧ sem.Runs rest (t.leave s.vars.length) s' := by
  constructor
  · rintro ⟨⟩
    exact ⟨_, ‹_›, ‹_›⟩
  · rintro ⟨t, inside, run⟩
    exact .block inside run

theorem inOrder_types : ∀ {es : List CExpr} {s s' : State V H} {vs : List V}, sem.InOrder es s vs s' →
    s'.types = s.types
  | [], s, s', vs, ⟨_, same⟩ => by rw [same]
  | e :: es, s, s', vs, ⟨o, more, _, _, rest⟩ => by rw [inOrder_types rest, State.after_types]

theorem inOrder_length : ∀ {es : List CExpr} {s s' : State V H} {vs : List V}, sem.InOrder es s vs s' →
    vs.length = es.length
  | [], s, s', vs, ⟨nothing, _⟩ => by rw [nothing, List.length_nil, List.length_nil]
  | e :: es, s, s', vs, ⟨o, more, _, same, rest⟩ => by
    rw [same, List.length_cons, List.length_cons, inOrder_length rest]

/-- What an expression does is not affected by inner variables that it does not mention. -/
theorem evaluates_push {e : CExpr} {s : State V H} {inner : List (String × Local V)} {h : H} {o : Outcome V H}
    (apart : ∀ n ∈ e.idents, n ∉ inner.map (·.1)) :
    sem.Evaluates e (s.push inner).view h o ↔ sem.Evaluates e s.view h o := by
  have same : ∀ n ∈ e.idents, (s.push inner).view n = s.view n := by
    intro n mentioned
    exact State.view_push (apart n mentioned)
  constructor
  · exact sem.reads same
  · exact sem.reads fun n mentioned => (same n mentioned).symm

/-- Declaring a temporary and assigning it a value that mentions neither it nor the temporaries before:
    the value is evaluated as without them, and they are kept. -/
theorem runs_temporary {f : String} {t : CType} {c : CExpr} {rest : List CStmt} {s s' : State V H}
    {temps : List (String × Local V)} (apart : ∀ n ∈ c.idents, n ∉ f :: temps.map (·.1)) :
    sem.Runs (.var f t :: C.set (.ident f) c :: rest) (s.push temps) s' ↔
      ∃ o, sem.Evaluates c s.view s.heap o ∧
        sem.Runs rest ((s.after o).push ((f, ⟨t, some (sem.convert t o.value)⟩) :: temps)) s' := by
  have declared : (s.push ((f, ⟨t, none⟩) :: temps)).view f = some ⟨t, none⟩ := by
    simp [State.view, State.push]
  have stored (o : Outcome V H) (evaluated : sem.Evaluates c s.view s.heap o) :
      (s.push ((f, ⟨t, none⟩) :: temps)).after
        ⟨sem.convert t o.value, o.writes ++ [(f, sem.convert t o.value)], o.heap⟩ =
      (s.after o).push ((f, ⟨t, some (sem.convert t o.value)⟩) :: temps) := by
    have passes : ∀ w ∈ o.writes, w.1 ∉ ((f, (⟨t, none⟩ : Local V)) :: temps).map (·.1) :=
      fun w written => apart w.1 (sem.writes evaluated w written)
    unfold State.after State.push
    rw [storeAll_append, storeAll_pass passes]
    simp [storeAll, storeIn]
  rw [runs_var_iff, State.push_declare, C.set, runs_expr_iff]
  have unaffected (o : Outcome V H) := @evaluates_push V H sem c s ((f, ⟨t, none⟩) :: temps) s.heap o apart
  simp only [sem.assign declared, State.push_heap, unaffected]
  constructor
  · rintro ⟨_, ⟨o, evaluated, rfl⟩, run⟩
    rw [stored o evaluated] at run
    exact ⟨o, evaluated, run⟩
  · rintro ⟨o, evaluated, run⟩
    refine ⟨_, ⟨o, evaluated, rfl⟩, ?_⟩
    rw [stored o evaluated]
    exact run

end Semantics
end

/-! ## A semantics with a record of calls -/

/-- The functions that have been called, with their arguments. -/
abbrev CallLog := List (String × List Int)

/-- The value of a variable. -/
def valueOf (view : String → Option (Local Int)) (x : String) : Option Int := (view x).bind (·.value)

/-- The values of arguments that are variables. -/
@[grind =] def argValues (view : String → Option (Local Int)) : List CExpr → Option (List Int)
  | [] => some []
  | .ident x :: rest => do return (← valueOf view x) :: (← argValues view rest)
  | _ => none

/-- What an expression over variables, integers, assignments and calls does. A call is recorded, and
    returns zero. -/
@[simp] def record (view : String → Option (Local Int)) (log : CallLog) : CExpr → Option (Outcome Int CallLog)
  | .ident x => (valueOf view x).map (⟨·, [], log⟩)
  | .const (.int i) => some ⟨i.toInt, [], log⟩
  | .assign .set (.ident x) e => do
    let o ← record view log e
    if (view x).isSome then some ⟨o.value, o.writes ++ [(x, o.value)], o.heap⟩ else none
  | .call (.ident f) args => do
    let vs ← argValues view args
    if (view f).isSome then none else some ⟨0, [], log ++ [(f, vs)]⟩
  | _ => none

theorem argValues_congr {view view' : String → Option (Local Int)} : ∀ {args : List CExpr},
    (∀ n ∈ argIdents args, view n = view' n) → argValues view args = argValues view' args
  | [], _ => rfl
  | e :: rest, same => by
    have tail := argValues_congr fun n inside => same n (List.mem_append_right _ inside)
    cases e with
    | ident x =>
      have head := same x (by simp [argIdents, CExpr.idents])
      simp only [argValues, valueOf, head, tail]
    | _ => rfl

theorem record_congr {view view' : String → Option (Local Int)} {log : CallLog} {e : CExpr}
    (same : ∀ n ∈ e.idents, view n = view' n) : record view log e = record view' log e := by
  fun_induction record view log e with
  | case1 x => simp only [record, valueOf, same x (List.mem_singleton_self x)]
  | case2 i => rw [record]
  | case3 x e ih =>
    have target := same x (List.mem_cons_self ..)
    have value := ih fun n inside => same n (List.mem_cons_of_mem _ inside)
    simp only [record, target, value]
  | case4 f args =>
    have callee := same f (List.mem_cons_self ..)
    have given := argValues_congr fun n inside => same n (List.mem_cons_of_mem _ inside)
    simp only [record, callee, given]
  | case5 e noIdent noConst noAssign noCall =>
    rw [record]
    · exact noIdent
    · exact noConst
    · exact noAssign
    · exact noCall

theorem record_writes {view : String → Option (Local Int)} {log : CallLog} {e : CExpr} {o : Outcome Int CallLog}
    (result : record view log e = some o) : ∀ w ∈ o.writes, w.1 ∈ e.idents := by
  fun_induction record view log e generalizing o with
  | case1 x =>
    obtain ⟨v, -, rfl⟩ := Option.map_eq_some_iff.mp result
    simp
  | case2 i =>
    cases result
    simp
  | case3 x e ih =>
    obtain ⟨inner, value, step⟩ := Option.bind_eq_some_iff.mp result
    split at step
    · cases step
      intro w written
      rcases List.mem_append.mp written with before | own
      · exact List.mem_append_right _ (ih value w before)
      · rw [List.mem_singleton.mp own]
        exact List.mem_cons_self ..
    · cases step
  | case4 f args =>
    obtain ⟨vs, -, step⟩ := Option.bind_eq_some_iff.mp result
    split at step
    · cases step
    · cases step
      simp
  | case5 => cases result

theorem argValues_eq {view : String → Option (Local Int)} {xs : List String} {vs : List Int}
    (given : List.Forall₂ (fun x v => ∃ t, view x = some ⟨t, some v⟩) xs vs) :
    argValues view (xs.map .ident) = some vs := by
  induction given with
  | nil => rfl
  | @cons x v xs vs here _ ih =>
    obtain ⟨t, visible⟩ := here
    simp [argValues, valueOf, visible, ih]

/-- Integers as values, whatever the type, and the record of calls as the heap. -/
def recording : Semantics Int CallLog where
  Evaluates e view log o := record view log e = some o
  Calls f vs log r log' := r = 0 ∧ log' = log ++ [(f, vs)]
  convert _ v := v
  reads same result := by rwa [← record_congr same]
  writes := record_writes
  assign visible := by
    simp only [record, visible, Option.isSome_some, if_true]
    rw [Option.bind_eq_bind, Option.bind_eq_some_iff]
    simp [eq_comm]
  call unhidden given := by
    simp only [C.call, record, argValues_eq given, unhidden]
    simp [eq_comm]

end PineLang.C
