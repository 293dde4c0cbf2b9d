import PineLang.Cache.Store
import PineLang.Proofs.Reports
import PineLang.Proofs.Validity

/-!
What the limit on diagnostics does. What a compilation reports does not depend on the limit (`compile_found`), and a
bag keeps the first of it; how the compilation ends is decided by what was reported and not by what was kept
(`limit_truncates`).
-/
namespace PineLang

/-! ## Bags -/

/-- A bag keeps what was there and the first of what comes, up to its limit. -/
theorem Bag.addAll_limited {limit : Nat} (some : limit ≠ 0) (ds : List Diagnostic) :
    ∀ kept : List Diagnostic, kept.length ≤ limit → ((Bag.mk limit kept).addAll ds).items = (kept ++ ds).take limit := by
  induction ds with
  | nil =>
    intro kept room
    rw [List.append_nil, List.take_of_length_le room]
    rfl
  | cons d ds ih =>
    intro kept room
    obtain full | free := Nat.eq_or_lt_of_le room
    · have step : (Bag.mk limit kept).addAll (d :: ds) = (Bag.mk limit kept).addAll ds := by
        simp [Bag.addAll, Bag.add, Bag.isFull, some, full]
      rw [step, ih kept room, ← full, List.take_left, List.take_left]
    · have step : (Bag.mk limit kept).addAll (d :: ds) = (Bag.mk limit (kept ++ [d])).addAll ds := by
        simp [Bag.addAll, Bag.add, Bag.isFull, some, Nat.not_le_of_lt free]
      rw [step, ih (kept ++ [d]) (by rw [List.length_append]; exact free), List.append_assoc, List.singleton_append]

theorem Bag.ofList_limited {limit : Nat} (some : limit ≠ 0) (ds : List Diagnostic) :
    (Bag.ofList limit ds).items = ds.take limit :=
  Bag.addAll_limited some ds [] (Nat.zero_le limit)

theorem Bag.ofList_unlimited (ds : List Diagnostic) : (Bag.ofList 0 ds).items = ds := Bag.addAll_unlimited ds []

theorem Bag.ofList_append (limit : Nat) (ds es : List Diagnostic) :
    (Bag.ofList limit ds).addAll es = Bag.ofList limit (ds ++ es) :=
  (List.foldl_append ..).symm

/-! ## Compilations -/

/-- How a compilation ends, and what it reports, without a word on the limit. -/
def SourceFile.compileFound (f : SourceFile) (path : String) (isProgram cancelled : Bool) :
    List Diagnostic × Except CompileError Generated :=
  match PineLang.parse (lexemes f.id f.content) cancelled with
  | .error e => (f.parseFound cancelled, .error (if e.fault == .cancelled then .cancelled else .parse path))
  | .ok tree =>
    let checked := tree.check isProgram
    let found := f.parseFound cancelled ++ checked.found
    match checked.error? with
    | some summary => (found, .error (.check path summary))
    | none =>
      match tree.lower (unitName path) with
      | .error fault => (found, .error (.lower path fault))
      | .ok u => (found, .ok (emit u isProgram))

/-- Every limit gives the same ending, and a bag of the same diagnostics. -/
theorem SourceFile.compile_found (f : SourceFile) (path : String) (limit : Nat) (isProgram cancelled : Bool) :
    f.compile path { limit, isProgram, cancelled } =
      ⟨Bag.ofList limit (f.compileFound path isProgram cancelled).1, (f.compileFound path isProgram cancelled).2⟩ := by
  have tree? := f.parse_ok? limit cancelled
  have bag := f.parse_bag limit cancelled
  unfold SourceFile.compile SourceFile.compileFound
  simp only [tree?, bag]
  cases parsed : PineLang.parse (lexemes f.id f.content) cancelled with
  | error e =>
    have stopped : (f.parse limit cancelled).cancelled = (e.fault == .cancelled) := by simp [SourceFile.parse, parsed]
    rw [stopped]
    simp only [Except.toOption]
    split <;> rfl
  | ok tree =>
    have going : (f.parse limit cancelled).cancelled = false := by simp [SourceFile.parse, parsed]
    simp only [going, Bool.false_eq_true, if_false, Except.toOption, Bag.ofList_append]
    cases (tree.check isProgram).error? with
    | some summary => rfl
    | none => cases tree.lower (unitName path) <;> rfl

/-- The limit on diagnostics only cuts them off: with a limit a compilation, cached or not, ends as it does without
    one, leaves the same disk, and keeps the first of the diagnostics that it keeps without one. -/
theorem limit_truncates (f : SourceFile) (path : String) (isProgram cancelled : Bool) (cache : Option Cache.Store)
    (disk : Disk) (n : Nat) (limited : 0 < n) :
    (f.compileCached path { limit := n, isProgram, cancelled } cache disk).1.outcome =
        (f.compileCached path { isProgram, cancelled } cache disk).1.outcome ∧
      (f.compileCached path { limit := n, isProgram, cancelled } cache disk).1.bag.items =
        (f.compileCached path { isProgram, cancelled } cache disk).1.bag.items.take n ∧
      (f.compileCached path { limit := n, isProgram, cancelled } cache disk).2 =
        (f.compileCached path { isProgram, cancelled } cache disk).2 := by
  unfold SourceFile.compileCached
  simp only [SourceFile.compile_found]
  cases Cache.lookup cache disk f isProgram with
  | some g => exact ⟨rfl, (List.take_nil).symm, rfl⟩
  | none =>
    simp only
    cases (f.compileFound path isProgram cancelled).2 with
    | ok g =>
      simp only [Bag.ofList_limited (Nat.ne_of_gt limited), Bag.ofList_unlimited, and_self]
    | error e =>
      simp only [Bag.ofList_limited (Nat.ne_of_gt limited), Bag.ofList_unlimited, and_self]

/-- Two fields that C cannot carry: a limit of one keeps the first of the two diagnostics, and the summary of the
    error counts both. -/
theorem limit_truncates_reserved :
    let f := SourceFile.ofContent 0 "app.pn" (utf8 "type T { int: i64, char: i64 }\n") .inMemory
    let limited := (f.compileCached "app.pn" { limit := 1 } none {}).1
    let unlimited := (f.compileCached "app.pn" {} none {}).1
    limited.bag.items.length = 1 ∧ unlimited.bag.items.length = 2 ∧
      limited.outcome = .error (.check "app.pn" "program failed structural checks: 2 error(s)") ∧
      limited.outcome = unlimited.outcome ∧ limited.bag.items = unlimited.bag.items.take 1 := by
  intro f limited unlimited
  obtain ⟨outcome, items, -⟩ := limit_truncates f "app.pn" false false none {} 1 Nat.one_pos
  have two : unlimited.bag.items.length = 2 := by decide +kernel
  have one : limited.bag.items.length = 1 := by rw [items, List.length_take, two]; rfl
  have summary : limited.outcome = .error (.check "app.pn" "program failed structural checks: 2 error(s)") := by decide +kernel
  exact ⟨one, two, summary, outcome, items⟩

end PineLang
