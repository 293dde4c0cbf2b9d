import PineLang.Proofs.Places

/-!
# Cleaned paths

Cleaning leaves names, with steps up before them where the path is not from the root (`Settled`), and of these
nothing is left to clean (`Path.clean_clean`).
-/
namespace PineLang
namespace Path

/-! ## What cleaning leaves -/

theorem isAbs_iff {p : String} : isAbs p = true ↔ ∃ cs, p.toList = '/' :: cs := by
  unfold isAbs
  cases p.toList with
  | nil => simp
  | cons c cs => simp

theorem parts_of_isAbs {p : String} (rooted : isAbs p = true) : ∃ rest, parts p = "" :: rest := by
  obtain ⟨cs, split⟩ := isAbs_iff.mp rooted
  refine ⟨(cs.splitOn '/').map String.ofList, ?_⟩
  rw [parts, split, ← List.nil_append ('/' :: cs), List.splitOn_append_cons_self]
  rfl

theorem empty_notMem_cleaned (p : String) : "" ∉ cleaned p := fun member => absurd rfl (mem_cleaned member).1

theorem body_ne_empty {p : String} (here : cleaned p ≠ []) : "/".intercalate (cleaned p) ≠ "" := by
  intro nothing
  have only := parts_cleaned here
  rw [nothing] at only
  apply empty_notMem_cleaned p
  rw [← only]
  decide

/-- A cleaned path starts at the root, or is the dot, or is made of the parts that are left. -/
theorem clean_cases (p : String) :
    (isAbs p = true ∧ clean p = "/" ++ "/".intercalate (cleaned p)) ∨
    (isAbs p = false ∧ cleaned p = [] ∧ clean p = ".") ∨
    (isAbs p = false ∧ cleaned p ≠ [] ∧ clean p = "/".intercalate (cleaned p)) := by
  unfold clean
  by_cases rooted : isAbs p = true
  · exact .inl ⟨rooted, by simp only [rooted, if_true]⟩
  · have relative : isAbs p = false := by simpa using rooted
    rw [relative]
    by_cases here : cleaned p = []
    · exact .inr (.inl ⟨rfl, here, by rw [here]; rfl⟩)
    · have text : ("/".intercalate (cleaned p)).isEmpty = false := by simpa using body_ne_empty here
      exact .inr (.inr ⟨rfl, here, by simp only [text, Bool.false_eq_true, if_false]⟩)

theorem isAbs_clean (p : String) : isAbs (clean p) = isAbs p := by
  obtain ⟨rooted, text⟩ | ⟨relative, _, text⟩ | ⟨relative, here, text⟩ := clean_cases p
  · rw [rooted, text]
    exact isAbs_iff.mpr ⟨_, String.toList_append⟩
  · rw [relative, text]
    decide
  · rw [relative, text, Bool.eq_false_iff]
    intro rooted
    obtain ⟨rest, split⟩ := parts_of_isAbs rooted
    apply empty_notMem_cleaned p
    rw [← parts_cleaned here, split]
    exact List.mem_cons_self ..

/-- A name is clean. -/
theorem Plain.clean {n : String} (plain : Plain n) : clean n = n := by
  have relative : isAbs n = false := by
    rw [Bool.eq_false_iff]
    intro rooted
    obtain ⟨cs, split⟩ := isAbs_iff.mp rooted
    exact plain.2.2.2 (split ▸ List.mem_cons_self)
  have only : cleaned n = [n] := by
    rw [cleaned, parts_of_noSlash plain.2.2.2]
    exact cleanParts_plain plain [] []
  have text : n.isEmpty = false := by simpa using plain.1
  rw [Path.clean, only, relative]
  simp [text]

/-! ## Cleaning twice -/

/-- What cleaning leaves of a path, in reverse: names, and before them steps up, of which a path from the root has none. -/
def Settled (rooted : Bool) (done : List String) : Prop :=
  ∃ names ups, done = names ++ List.replicate ups ".." ∧ (rooted = true → ups = 0) ∧
    ∀ n ∈ names, ¬(n == "" || n == ".") = true ∧ ¬(n == "..") = true

theorem cleanParts_settled {rooted : Bool} {ps done : List String} (settled : Settled rooted done) :
    Settled rooted (cleanParts rooted done ps).reverse := by
  fun_induction cleanParts rooted done ps with
  | case1 done => rwa [List.reverse_reverse]
  | case2 done p rest _ ih => exact ih settled
  | case3 p rest _ _ ih =>
    refine ih ⟨[], if rooted then 0 else 1, ?_, fun up => if_pos up, by simp⟩
    cases rooted <;> rfl
  | case4 p rest _ _ above ih =>
    obtain ⟨names, ups, split, root, plain⟩ := settled
    cases names with
    | nil =>
      have relative : rooted = true → ups + 1 = 0 := by
        intro up
        rw [root up] at split
        cases split
      exact ih ⟨[], ups + 1, by rw [split]; rfl, relative, by simp⟩
    | cons n names =>
      obtain rfl : ".." = n := (List.cons.inj split).1
      exact absurd rfl (plain _ List.mem_cons_self).2
  | case5 p rest _ _ head above other ih =>
    obtain ⟨names, ups, split, root, plain⟩ := settled
    cases names with
    | nil =>
      cases ups with
      | zero => cases split
      | succ ups => exact absurd (List.cons.inj split).1 other
    | cons n names => exact ih ⟨names, ups, (List.cons.inj split).2, root, fun m inside => plain m (List.mem_cons_of_mem n inside)⟩
  | case6 done p rest here up ih =>
    obtain ⟨names, ups, rfl, root, plain⟩ := settled
    exact ih ⟨p :: names, ups, rfl, root, List.forall_mem_cons.mpr ⟨⟨here, up⟩, plain⟩⟩

theorem cleanParts_names {rooted : Bool} {names : List String} (done : List String)
    (plain : ∀ n ∈ names, ¬(n == "" || n == ".") = true ∧ ¬(n == "..") = true) :
    cleanParts rooted done names = done.reverse ++ names := by
  induction names generalizing done with
  | nil => simp [cleanParts]
  | cons n names ih =>
    obtain ⟨here, later⟩ := List.forall_mem_cons.mp plain
    unfold cleanParts
    rw [if_neg here.1, if_neg here.2, ih _ later, List.reverse_cons, List.append_assoc]
    rfl

theorem cleanParts_ups (names : List String) (ups done : Nat) :
    cleanParts false (List.replicate done "..") (List.replicate ups ".." ++ names) =
      cleanParts false (List.replicate (done + ups) "..") names := by
  induction ups generalizing done with
  | zero => rfl
  | succ ups ih =>
    have more : done + (ups + 1) = done + 1 + ups := by omega
    rw [more, ← ih, List.replicate_succ, List.cons_append, cleanParts.eq_def]
    cases done with
    | zero => rfl
    | succ done => rfl

/-- Nothing is left to clean in what cleaning leaves. -/
theorem cleanParts_cleaned {rooted : Bool} {ps : List String} (settled : Settled rooted ps.reverse) :
    cleanParts rooted [] ps = ps := by
  obtain ⟨names, ups, split, root, plain⟩ := settled
  have plain : ∀ n ∈ names.reverse, ¬(n == "" || n == ".") = true ∧ ¬(n == "..") = true :=
    fun n inside => plain n (List.mem_reverse.mp inside)
  rw [List.reverse_eq_iff, List.reverse_append, List.reverse_replicate] at split
  subst split
  cases rooted with
  | true =>
    rw [root rfl]
    exact cleanParts_names [] plain
  | false =>
    refine (cleanParts_ups _ ups 0).trans ?_
    rw [cleanParts_names _ plain, List.reverse_replicate, Nat.zero_add]

theorem cleaned_settled (p : String) : Settled (isAbs p) (cleaned p).reverse :=
  cleanParts_settled ⟨[], 0, rfl, fun _ => rfl, by simp⟩

theorem cleaned_clean (p : String) : cleaned (clean p) = cleaned p := by
  have again := cleanParts_cleaned (cleaned_settled p)
  rw [cleaned, isAbs_clean]
  obtain ⟨rooted, text⟩ | ⟨relative, nothing, text⟩ | ⟨relative, here, text⟩ := clean_cases p
  · have split : parts (clean p) = "" :: parts ("/".intercalate (cleaned p)) := by
      rw [text]
      exact parts_slash "" _
    rw [split, cleanParts, if_pos (by decide)]
    by_cases here : cleaned p = []
    · rw [here]
      rfl
    · rw [parts_cleaned here, again]
  · rw [relative, text, nothing]
    rfl
  · rw [text, parts_cleaned here, again]

/-- A cleaned path is clean. -/
theorem clean_clean (p : String) : clean (clean p) = clean p := by
  have only : ∀ q, cleaned q = cleaned p → isAbs q = isAbs p → clean q = clean p := by
    intro q same root
    rw [clean, clean, same, root]
  exact only _ (cleaned_clean p) (isAbs_clean p)

end Path
end PineLang
