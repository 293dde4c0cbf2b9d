import Mathlib.Data.List.Nodup
import PineLang.Proofs.CleanPaths
import PineLang.Source.FileSet
import PineLang.Source.Interner

/-!
# Numbers of files and names

Paths and names are numbered in the order of their first uses: a number is a place among the distinct keys. What a file set
and an interner answer and know is told by the uses alone (`FileSet.run_after`, `Interner.run_eraseDups`), so a number
stands for one path or name for good. Tables that keep an index next to their entries, and look keys up in it, answer the
same as long as 32 bits are enough for the numbers (`FileTable.Shows.run`, `NameTable.Shows.run`): the index stays the
inverse of the entries. A table of files stops at the first path behind the last number, and a table of names begins again.
-/
namespace PineLang

/-! ## Distinct keys -/

section Keys

variable {α : Type} [BEq α] [LawfulBEq α]

theorem nodup_eraseDups : ∀ keys : List α, keys.eraseDups.Nodup
  | [] => List.nodup_nil
  | key :: keys => by
    rw [List.eraseDups_cons, List.nodup_cons]
    refine ⟨fun again => ?_, nodup_eraseDups _⟩
    have kept := (List.mem_filter.mp (List.mem_eraseDups.mp again)).2
    simp at kept
termination_by keys => keys.length
decreasing_by exact Nat.lt_succ_of_le (List.length_filter_le ..)

theorem eraseDups_known {keys : List α} {key : α} (known : key ∈ keys) : (keys ++ [key]).eraseDups = keys.eraseDups := by
  simp [List.eraseDups_append, List.removeAll, known]

theorem eraseDups_fresh {keys : List α} {key : α} (fresh : key ∉ keys) :
    (keys ++ [key]).eraseDups = keys.eraseDups ++ [key] := by
  simp [List.eraseDups_append, List.removeAll, fresh, List.eraseDups_cons]

theorem eraseDups_of_nodup {keys : List α} (distinct : keys.Nodup) : keys.eraseDups = keys := by
  induction keys with
  | nil => rfl
  | cons key keys ih =>
    obtain ⟨fresh, distinct⟩ := List.nodup_cons.mp distinct
    have others : keys.filter (fun k => !k == key) = keys := by
      refine List.filter_eq_self.mpr fun k inside => ?_
      have apart : k ≠ key := fun same => fresh (same ▸ inside)
      simpa using apart
    rw [List.eraseDups_cons, others, ih distinct]

/-- The number of a key stays when more keys are used. -/
theorem idxOf_eraseDups_append {keys : List α} {key : α} (known : key ∈ keys) (more : List α) :
    (keys ++ more).eraseDups.idxOf key = keys.eraseDups.idxOf key := by
  rw [List.eraseDups_append, List.idxOf_append, if_pos (List.mem_eraseDups.mpr known)]

/-- Distinct keys have distinct places. -/
theorem idxOf_eq {keys : List α} (distinct : keys.Nodup) {key : α} {id : Nat} (there : keys[id]? = some key) :
    keys.idxOf key = id := by
  obtain ⟨inside, rfl⟩ := List.getElem?_eq_some_iff.mp there
  exact distinct.idxOf_getElem id inside

theorem idxOf?_eq_some {keys : List α} (distinct : keys.Nodup) {key : α} {id : Nat} :
    keys.idxOf? key = some id ↔ keys[id]? = some key := by
  rw [List.idxOf?_eq_some_iff, List.getElem?_eq_some_iff]
  constructor
  · rintro ⟨inside, here, _⟩
    exact ⟨inside, here⟩
  · rintro ⟨inside, here⟩
    refine ⟨inside, here, fun j lower again => ?_⟩
    have first := idxOf_eq distinct (List.getElem?_eq_some_iff.mpr ⟨inside, here⟩)
    have second := idxOf_eq distinct (List.getElem?_eq_some_iff.mpr ⟨by omega, again⟩)
    omega

theorem idxOf?_known {keys : List α} (distinct : keys.Nodup) {key : α} (known : key ∈ keys) :
    keys.idxOf? key = some (keys.idxOf key) := (idxOf?_eq_some distinct).mpr (List.getElem?_idxOf known)

end Keys

/-- An index, in which an earlier entry hides a later one, leads to the places of keys, as numbers. -/
def Indexes (number : Nat → Nat) (index : List (String × Nat)) (keys : List String) : Prop :=
  ∀ key, index.lookup key = (keys.idxOf? key).map number

theorem indexes_nil (number : Nat → Nat) : Indexes number [] [] := fun _ => rfl

/-- A new key gets the next number. -/
theorem Indexes.grow {number : Nat → Nat} {index : List (String × Nat)} {keys : List String}
    (indexes : Indexes number index keys) {key : String} (fresh : key ∉ keys) :
    Indexes number ((key, number keys.length) :: index) (keys ++ [key]) := by
  intro k
  have absent : keys.idxOf? key = none := List.idxOf?_eq_none_iff.mpr fresh
  rw [List.lookup_cons, indexes k]
  unfold List.idxOf? at absent ⊢
  rw [List.findIdx?_append]
  by_cases own : k = key
  · subst own
    simp [absent]
  · have other : (k == key) = false := by simpa using own
    have apart : (key == k) = false := by simpa using Ne.symm own
    simp [other, apart]

/-! ## Uses of a file set -/

namespace FileSet

/-- What can be done to a file set. -/
inductive Use where
  | intern (path : String)
  | add (path : String) (content : Bytes) (flags : FileFlags)
  | addInMemory (path : String) (content : Bytes)
  | load (storage : Storage) (path : String)

namespace Use

/-- The path that is used. -/
def path : Use → String
  | intern p => p
  | add p _ _ => p
  | addInMemory p _ => p
  | load _ p => p

/-- The content that is kept under the path, if any; a file that cannot be read is not even numbered. -/
def brings : Use → Except DiskFault (Option (Bytes × FileFlags))
  | intern _ => .ok none
  | add _ content flags => .ok (some (content, flags))
  | addInMemory _ content => .ok (some (content, .inMemory))
  | load storage p => (storage p).map fun raw => some (readText raw)

/-- The cleaned path, if the use gets as far as to number it. -/
def named? (u : Use) : Option String := u.brings.toOption.map fun _ => Path.clean u.path

/-- The content, if the use brings one. -/
def content? (u : Use) : Option (Bytes × FileFlags) := u.brings.toOption.join

end Use

/-- The answer to a use, and the set after it. -/
def use (s : FileSet) : Use → Except DiskFault Nat × FileSet
  | .intern path => (.ok (s.intern path).1, (s.intern path).2)
  | .add path content flags => (.ok (s.add path content flags).1, (s.add path content flags).2)
  | .addInMemory path content => (.ok (s.addInMemory path content).1, (s.addInMemory path content).2)
  | .load storage path =>
    match s.load storage path with
    | .ok (id, s) => (.ok id, s)
    | .error fault => (.error fault, s)

/-- The answers to uses one after another, and the set after them. -/
def run : FileSet → List Use → List (Except DiskFault Nat) × FileSet
  | s, [] => ([], s)
  | s, u :: later => ((s.use u).1 :: (run (s.use u).2 later).1, (run (s.use u).2 later).2)

/-- The distinct paths, in the order of their first uses. -/
def paths (uses : List Use) : List String := (uses.filterMap Use.named?).eraseDups

/-- The content that was kept last under a path, if any. -/
def kept (uses : List Use) (path : String) : Option (Bytes × FileFlags) :=
  (uses.filterMap fun u => if u.named? = some path then u.content? else none).getLast?

/-- What is known of a file, by its content. -/
def recordOf (id : Nat) (path : String) : Option (Bytes × FileFlags) → SourceRecord
  | none => .named path
  | some (content, flags) => .loaded (.ofContent id path content flags)

/-- The set that some uses lead to. -/
def after (uses : List Use) : FileSet := ⟨(paths uses).mapIdx fun id path => recordOf id path (kept uses path)⟩

variable {uses : List Use} {u : Use} {p : String}

theorem path_recordOf (id : Nat) (path : String) (content : Option (Bytes × FileFlags)) :
    (recordOf id path content).path = path := by
  cases content <;> rfl

/-- The paths that are known, by number. -/
def known (s : FileSet) : List String := s.records.map (·.path)

section Steps

variable {s : FileSet} {path : String}

theorem lookup_eq (s : FileSet) (path : String) : s.lookup path = s.known.idxOf? (Path.clean path) := by
  rw [List.idxOf?, known, List.findIdx?_map]
  rfl

theorem intern_known {id : Nat} (found : s.lookup path = some id) : s.intern path = (id, s) := by
  rw [intern, found]

theorem intern_fresh (absent : s.lookup path = none) :
    s.intern path = (s.records.length, ⟨s.records ++ [recordOf s.records.length (Path.clean path) none]⟩) := by
  rw [intern, absent]
  rfl

theorem add_known {id : Nat} (found : s.lookup path = some id) (content : Bytes) (flags : FileFlags) :
    s.add path content flags = (id, ⟨s.records.set id (recordOf id (Path.clean path) (some (content, flags)))⟩) := by
  have inside := (List.findIdx?_eq_some_iff_getElem.mp found).1
  simp only [add, found, Option.getD_some, if_pos inside]
  rfl

/-- A record for a path that is known leaves the numbers of all paths. -/
theorem known_set {id : Nat} (found : s.lookup path = some id) {r : SourceRecord} (own : r.path = Path.clean path) :
    (⟨s.records.set id r⟩ : FileSet).known = s.known := by
  obtain ⟨inside, there, _⟩ := List.findIdx?_eq_some_iff_getElem.mp found
  show (s.records.set id r).map (·.path) = _
  rw [List.map_set, own, ← eq_of_beq there, ← List.map_set, List.set_getElem_self]
  rfl

/-- Content for a path that is known goes to the file of that path, and all else stays. -/
theorem add_again {id : Nat} (found : s.lookup path = some id) (content : Bytes) (flags : FileFlags) :
    (s.add path content flags).1 = id ∧
      (s.add path content flags).2.get? id = some (.ofContent id (Path.clean path) content flags) ∧
      (∀ other ≠ id, (s.add path content flags).2.get? other = s.get? other) ∧
      (∀ p, (s.add path content flags).2.lookup p = s.lookup p) ∧ (s.add path content flags).2.size = s.size := by
  have number : (s.add path content flags).1 = id := by rw [add_known found]
  have kept := get?_add s path content flags
  rw [number] at kept
  refine ⟨number, kept, ?_⟩
  rw [add_known found]
  refine ⟨fun other apart => ?_, fun p => ?_, List.length_set⟩
  · exact congrArg _ (List.getElem?_set_ne (Ne.symm apart))
  · rw [lookup_eq, lookup_eq, known_set found (path_recordOf ..)]

theorem add_fresh (absent : s.lookup path = none) (content : Bytes) (flags : FileFlags) :
    s.add path content flags = (s.records.length,
      ⟨s.records ++ [recordOf s.records.length (Path.clean path) (some (content, flags))]⟩) := by
  simp only [add, absent, Option.getD_none, Nat.lt_irrefl, if_false]
  rfl

end Steps

theorem use_eq (s : FileSet) (u : Use) :
    s.use u = match u.brings with
      | .error fault => (.error fault, s)
      | .ok none => (.ok (s.intern u.path).1, (s.intern u.path).2)
      | .ok (some (content, flags)) => (.ok (s.add u.path content flags).1, (s.add u.path content flags).2) := by
  cases u with
  | load storage path =>
    simp only [use, load, loadedText_eq, Use.brings, Use.path]
    cases storage path <;> rfl
  | _ => rfl

/-- No path is ever forgotten. -/
theorem size_use (s : FileSet) (u : Use) : s.size ≤ (s.use u).2.size := by
  have intern : s.size ≤ (s.intern u.path).2.size := by
    cases found : s.lookup u.path with
    | some id => simp [intern_known found]
    | none => simp [intern_fresh found, size]
  have add (content : Bytes) (flags : FileFlags) : s.size ≤ (s.add u.path content flags).2.size := by
    cases found : s.lookup u.path with
    | some id => simp [add_known found, size]
    | none => simp [add_fresh found, size]
  rw [use_eq]
  split
  · exact Nat.le_refl _
  · exact intern
  · exact add _ _

theorem size_run (s : FileSet) (uses : List Use) : s.size ≤ (s.run uses).2.size := by
  induction uses generalizing s with
  | nil => exact Nat.le_refl _
  | cons u later ih => exact Nat.le_trans (size_use s u) (ih _)

theorem paths_unnamed (unnamed : u.named? = none) : paths (uses ++ [u]) = paths uses := by
  rw [paths, List.filterMap_append, List.filterMap_cons_none unnamed, List.filterMap_nil, List.append_nil]
  rfl

theorem paths_known (named : u.named? = some p) (known : p ∈ paths uses) : paths (uses ++ [u]) = paths uses := by
  rw [paths, List.filterMap_append, List.filterMap_cons_some named, List.filterMap_nil]
  exact eraseDups_known (List.mem_eraseDups.mp known)

theorem paths_fresh (named : u.named? = some p) (fresh : p ∉ paths uses) : paths (uses ++ [u]) = paths uses ++ [p] := by
  rw [paths, List.filterMap_append, List.filterMap_cons_some named, List.filterMap_nil]
  exact eraseDups_fresh (mt List.mem_eraseDups.mpr fresh)

theorem kept_append (uses : List Use) (u : Use) (path : String) :
    kept (uses ++ [u]) path = (if u.named? = some path then u.content? else none).or (kept uses path) := by
  rw [kept, List.filterMap_append, List.getLast?_append]
  congr 1
  rw [List.filterMap_cons]
  split <;> simp_all

/-- Of a path that was never used nothing is kept. -/
theorem kept_fresh (fresh : p ∉ paths uses) : kept uses p = none := by
  have nothing : (uses.filterMap fun u => if u.named? = some p then u.content? else none) = [] := by
    refine List.filterMap_eq_nil_iff.mpr fun u inside => if_neg fun named => fresh ?_
    exact List.mem_eraseDups.mpr (List.mem_filterMap.mpr ⟨u, inside, named⟩)
  rw [kept, nothing, List.getLast?_nil]

theorem nodup_paths (uses : List Use) : (paths uses).Nodup := nodup_eraseDups _

theorem known_after (uses : List Use) : (after uses).known = paths uses := by
  refine List.ext_getElem? fun id => ?_
  rw [known, after, List.getElem?_map, List.getElem?_mapIdx, Option.map_map]
  simp [Function.comp_def, path_recordOf]

theorem size_after (uses : List Use) : (after uses).size = (paths uses).length := List.length_mapIdx

theorem lookup_after (uses : List Use) (path : String) : (after uses).lookup path = (paths uses).idxOf? (Path.clean path) := by
  rw [lookup_eq, known_after]

/-- Where nothing is brought, paths that were known are known with what they were. -/
theorem after_same (same : paths (uses ++ [u]) = paths uses) (nothing : u.content? = none) :
    after (uses ++ [u]) = after uses := by
  have still : kept (uses ++ [u]) = kept uses := by
    funext path
    rw [kept_append, nothing, ite_self, Option.none_or]
  rw [after, after, same, still]

theorem after_fresh (named : u.named? = some p) (fresh : p ∉ paths uses) :
    (after (uses ++ [u])).records = (after uses).records ++ [recordOf (paths uses).length p u.content?] := by
  have own : kept (uses ++ [u]) p = u.content? := by
    rw [kept_append, if_pos named, kept_fresh fresh, Option.or_none]
  rw [after, paths_fresh named fresh, List.mapIdx_append]
  refine congrArg₂ (· ++ ·) ?_ ?_
  · refine List.mapIdx_eq_mapIdx_iff.mpr fun id inside => ?_
    have other : u.named? ≠ some (paths uses)[id] := by
      rw [named]
      intro same
      exact fresh (Option.some.inj same ▸ List.getElem_mem inside)
    rw [kept_append, if_neg other, Option.none_or]
  · simp [own]

theorem after_known (named : u.named? = some p) (known : p ∈ paths uses) {content : Bytes × FileFlags}
    (brings : u.content? = some content) :
    (after (uses ++ [u])).records =
      (after uses).records.set ((paths uses).idxOf p) (recordOf ((paths uses).idxOf p) p (some content)) := by
  refine List.ext_getElem? fun id => ?_
  rw [after, paths_known named known, List.getElem?_mapIdx, List.getElem?_set, after, List.getElem?_mapIdx]
  by_cases own : (paths uses).idxOf p = id
  · subst own
    have inside := List.idxOf_lt_length_of_mem known
    rw [if_pos rfl, List.length_mapIdx, if_pos inside, List.getElem?_idxOf known, Option.map_some, kept_append, if_pos named,
      brings, Option.some_or]
  · rw [if_neg own]
    cases there : (paths uses)[id]? with
    | none => rfl
    | some path =>
      have other : u.named? ≠ some path := by
        rw [named]
        rintro ⟨⟩
        exact own (idxOf_eq (nodup_paths uses) there)
      rw [Option.map_some, Option.map_some, kept_append, if_neg other, Option.none_or]

/-- One more use of a set is answered with the place of its path among the distinct paths. -/
theorem use_after (uses : List Use) (u : Use) :
    (after uses).use u =
      (u.brings.map fun _ => (paths (uses ++ [u])).idxOf (Path.clean u.path), after (uses ++ [u])) := by
  rw [use_eq]
  cases brings : u.brings with
  | error fault =>
    have unnamed : u.named? = none := by rw [Use.named?, brings]; rfl
    have nothing : u.content? = none := by rw [Use.content?, brings]; rfl
    rw [after_same (paths_unnamed unnamed) nothing]
    rfl
  | ok brought =>
    have named : u.named? = some (Path.clean u.path) := by rw [Use.named?, brings]; rfl
    have content : u.content? = brought := by rw [Use.content?, brings]; rfl
    by_cases known : Path.clean u.path ∈ paths uses
    · have found : (after uses).lookup u.path = some ((paths uses).idxOf (Path.clean u.path)) := by
        rw [lookup_after, idxOf?_known (nodup_paths uses) known]
      rw [paths_known named known]
      cases brought with
      | none =>
        rw [after_same (paths_known named known) content]
        simp only [intern_known found]
        rfl
      | some kept =>
        have changed : after (uses ++ [u]) = ⟨_⟩ := congrArg FileSet.mk (after_known named known content)
        simp only [add_known found, changed]
        rfl
    · have absent : (after uses).lookup u.path = none := by
        rw [lookup_after, List.idxOf?_eq_none_iff]
        exact known
      have size : (after uses).records.length = (paths uses).length := size_after uses
      have number : (paths (uses ++ [u])).idxOf (Path.clean u.path) = (paths uses).length := by
        rw [paths_fresh named known, List.idxOf_append, if_neg known]
        simp
      have more : after (uses ++ [u]) = ⟨_⟩ := congrArg FileSet.mk (after_fresh named known)
      rw [content] at more
      rw [number, more]
      cases brought with
      | none =>
        simp only [intern_fresh absent, size]
        rfl
      | some kept =>
        simp only [add_fresh absent, size]
        rfl

/-- The number of a path stays when more is used. -/
theorem paths_stable {more : List Use} (known : p ∈ paths uses) : (paths (uses ++ more)).idxOf p = (paths uses).idxOf p := by
  rw [paths, List.filterMap_append]
  exact idxOf_eraseDups_append (List.mem_eraseDups.mp known) _

theorem mem_paths {brought : Option (Bytes × FileFlags)} (inside : u ∈ uses) (brings : u.brings = .ok brought) :
    Path.clean u.path ∈ paths uses := by
  refine List.mem_eraseDups.mpr (List.mem_filterMap.mpr ⟨u, inside, ?_⟩)
  rw [Use.named?, brings]
  rfl

/-- What uses are answered, and what the set knows after them, from any set that uses lead to. -/
theorem run_after (earlier uses : List Use) :
    run (after earlier) uses =
      (uses.map fun u => u.brings.map fun _ => (paths (earlier ++ uses)).idxOf (Path.clean u.path), after (earlier ++ uses)) := by
  induction uses generalizing earlier with
  | nil => rw [List.append_nil]; rfl
  | cons u later ih =>
    have together : earlier ++ u :: later = earlier ++ [u] ++ later := by simp
    have own : (u.brings.map fun _ => (paths (earlier ++ [u])).idxOf (Path.clean u.path)) =
        u.brings.map fun _ => (paths (earlier ++ [u] ++ later)).idxOf (Path.clean u.path) := by
      cases brings : u.brings with
      | error fault => rfl
      | ok brought =>
        have known : Path.clean u.path ∈ paths (earlier ++ [u]) := mem_paths (by simp) brings
        rw [paths_stable known]
    rw [run, use_after, ih, together, own, List.map_cons]

theorem get?_after (uses : List Use) (id : Nat) :
    (after uses).get? id = (paths uses)[id]?.map fun path =>
      (kept uses path).elim (.ofPath id path) fun (content, flags) => .ofContent id path content flags := by
  rw [get?, record?, after, List.getElem?_mapIdx, Option.map_map]
  refine congrArg (Option.map · _) (funext fun path => ?_)
  show (recordOf id path (kept uses path)).file id = _
  cases kept uses path <;> rfl

end FileSet

/-! ## Files with an index -/

namespace FileTable

/-- The answer to a use, and the table after it. -/
def use (t : FileTable) : FileSet.Use → Except Crash (Except DiskFault Nat × FileTable)
  | .intern path => (t.intern path).map fun (id, t) => (.ok id, t)
  | .add path content flags => (t.add path content flags).map fun (id, t) => (.ok id, t)
  | .addInMemory path content => (t.add path content .inMemory).map fun (id, t) => (.ok id, t)
  | .load storage path => t.load storage path

/-- The answers to uses one after another, and the table after them. -/
def run : FileTable → List FileSet.Use → Except Crash (List (Except DiskFault Nat) × FileTable)
  | t, [] => .ok ([], t)
  | t, u :: later => (t.use u).bind fun x => (run x.2 later).map fun y => (x.1 :: y.1, y.2)

/-- The table has the files of the set, and its index leads to them. -/
structure Shows (t : FileTable) (s : FileSet) : Prop where
  files : t.files = s.records.mapIdx fun id r => r.file id
  index : Indexes id t.index s.known

variable {t : FileTable} {s : FileSet} {path : String}

theorem Shows.lookup (shows : t.Shows s) (path : String) : t.lookup path = s.lookup path := by
  rw [FileSet.lookup_eq, FileTable.lookup, shows.index, Option.map_id_fun, id]

theorem Shows.get? (shows : t.Shows s) (id : Nat) : t.get? id = s.get? id := by
  rw [FileTable.get?, shows.files, List.getElem?_mapIdx]
  rfl

theorem Shows.length (shows : t.Shows s) : t.files.length = s.records.length := by
  rw [shows.files, List.length_mapIdx]

/-- What an answer of the set leaves to the table: to give the same, or to stop if there are more paths than numbers. -/
def Follows {α : Type} (next : Except Crash (α × FileTable)) (answer : α × FileSet) : Prop :=
  if answer.2.size ≤ 0x100000000 then ∃ t, next = .ok (answer.1, t) ∧ t.Shows answer.2 else next = .error .fileCount

theorem Follows.map {α β : Type} {next : Except Crash (α × FileTable)} {answer : α × FileSet} (follows : Follows next answer)
    (g : α → β) : Follows (next.map fun x => (g x.1, x.2)) (g answer.1, answer.2) := by
  unfold Follows at follows ⊢
  split at follows
  · next few =>
    obtain ⟨t, rfl, shows⟩ := follows
    rw [if_pos few]
    exact ⟨t, rfl, shows⟩
  · next many =>
    rw [if_neg many, follows]
    rfl

theorem Shows.follows {α : Type} (shows : t.Shows s) (few : s.size ≤ 0x100000000) (a : α) : Follows (.ok (a, t)) (a, s) := by
  rw [Follows, if_pos few]
  exact ⟨t, rfl, shows⟩

theorem Shows.append (shows : t.Shows s) {r : SourceRecord} {f : SourceFile} (path : f.path = r.path)
    (file : r.file t.files.length = { f with id := t.files.length }) (fresh : s.known.idxOf? r.path = none) :
    Follows (t.append f) (s.records.length, ⟨s.records ++ [r]⟩) := by
  have size : (⟨s.records ++ [r]⟩ : FileSet).size = t.files.length + 1 := by
    rw [FileSet.size, List.length_append, shows.length]
    rfl
  rw [Follows, size, FileTable.append, narrow, ← shows.length]
  split
  · next few =>
    rw [if_pos (Nat.lt_of_succ_le few)]
    refine ⟨_, rfl, ?_, ?_⟩
    · show t.files ++ [{ f with id := t.files.length }] = _
      rw [List.mapIdx_concat, ← shows.files, ← shows.length, file]
    · have known : t.files.length = s.known.length := by rw [shows.length, FileSet.known, List.length_map]
      have grown := shows.index.grow (List.idxOf?_eq_none_iff.mp fresh)
      show Indexes id ((f.path, t.files.length) :: t.index) ((s.records ++ [r]).map (·.path))
      rw [known, path, List.map_append]
      exact grown
  · next many =>
    rw [if_neg fun few => many (Nat.succ_le_of_lt few)]
    rfl

section Steps

variable (shows : t.Shows s) (few : s.size ≤ 0x100000000)
include shows few

theorem Shows.intern (path : String) : Follows (t.intern path) (s.intern path) := by
  have same := shows.lookup path
  cases found : s.lookup path with
  | some id =>
    rw [FileTable.intern, same, found, FileSet.intern_known found]
    exact shows.follows few id
  | none =>
    rw [FileTable.intern, same, found, FileSet.intern_fresh found]
    rw [FileSet.lookup_eq] at found
    exact shows.append rfl rfl found

theorem Shows.add (path : String) (content : Bytes) (flags : FileFlags) :
    Follows (t.add path content flags) (s.add path content flags) := by
  have same := shows.lookup path
  cases found : s.lookup path with
  | some id =>
    have changed : FileTable.Shows { t with files := t.files.set id (.ofContent id (Path.clean path) content flags) }
        ⟨s.records.set id (FileSet.recordOf id (Path.clean path) (some (content, flags)))⟩ := by
      refine ⟨?_, ?_⟩
      · rw [List.mapIdx_set, ← shows.files]
        rfl
      · rw [Indexes, FileSet.known_set found (FileSet.path_recordOf ..)]
        exact shows.index
    rw [FileTable.add, same, found, FileSet.add_known found]
    exact changed.follows (by rwa [FileSet.size, List.length_set]) id
  | none =>
    rw [FileTable.add, same, found, FileSet.add_fresh found]
    rw [FileSet.lookup_eq] at found
    exact shows.append rfl rfl found

theorem Shows.use (u : FileSet.Use) : Follows (t.use u) (s.use u) := by
  cases u with
  | intern path => exact (shows.intern few path).map Except.ok
  | add path content flags => exact (shows.add few path content flags).map Except.ok
  | addInMemory path content => exact (shows.add few path content .inMemory).map Except.ok
  | load storage path =>
    simp only [FileTable.use, FileTable.load, FileSet.use, FileSet.load]
    cases storage path with
    | error fault => exact shows.follows few _
    | ok raw => exact (shows.add few path (loadedText raw).1 (loadedText raw).2).map Except.ok

end Steps

/-- The table answers any uses as the set does, up to the first path that there is no number for. -/
theorem Shows.run (uses : List FileSet.Use) {t : FileTable} {s : FileSet} (shows : t.Shows s)
    (few : s.size ≤ 0x100000000) : Follows (t.run uses) (s.run uses) := by
  induction uses generalizing t s with
  | nil => exact shows.follows few []
  | cons u later ih =>
    have first := shows.use few u
    have grows := FileSet.size_run (s.use u).2 later
    rw [Follows] at first
    split at first
    · next few =>
      obtain ⟨t', answer, shows⟩ := first
      have ran : t.run (u :: later) = (t'.run later).map fun x => ((s.use u).1 :: x.1, x.2) := by
        rw [FileTable.run, answer]
        rfl
      rw [ran]
      exact (ih shows few).map _
    · next many =>
      have ran : t.run (u :: later) = .error .fileCount := by
        rw [FileTable.run, first]
        rfl
      rw [ran, Follows, if_neg]
      exact fun fits => many (Nat.le_trans grows fits)

theorem shows_empty : FileTable.Shows {} {} := ⟨rfl, indexes_nil id⟩

end FileTable

/-! ## Names -/

namespace Interner

/-- The numbers of names one after another, and what is known after them. -/
def run : Interner → List String → List Nat × Interner
  | t, [] => ([], t)
  | t, name :: later => ((t.intern name).1 :: (run (t.intern name).2 later).1, (run (t.intern name).2 later).2)

theorem intern_eraseDups (keys : List String) (name : String) :
    intern ⟨keys.eraseDups⟩ name = ((keys ++ [name]).eraseDups.idxOf name, ⟨(keys ++ [name]).eraseDups⟩) := by
  by_cases known : name ∈ keys
  · have inside := List.mem_eraseDups.mpr known
    have found : find? ⟨keys.eraseDups⟩ name = some (keys.eraseDups.idxOf name) := idxOf?_known (nodup_eraseDups _) inside
    rw [intern, found, eraseDups_known known]
  · have outside := mt List.mem_eraseDups.mp known
    have absent : find? ⟨keys.eraseDups⟩ name = none := List.idxOf?_eq_none_iff.mpr outside
    rw [intern, absent, eraseDups_fresh known, List.idxOf_append, if_neg outside]
    simp

/-- What names are numbered and what is known after them, from all that was known before. -/
theorem run_eraseDups (keys names : List String) :
    run ⟨keys.eraseDups⟩ names = (names.map ((keys ++ names).eraseDups.idxOf ·), ⟨(keys ++ names).eraseDups⟩) := by
  induction names generalizing keys with
  | nil => rw [List.append_nil]; rfl
  | cons name later ih =>
    have together : keys ++ name :: later = keys ++ [name] ++ later := by simp
    have known : name ∈ keys ++ [name] := by simp
    rw [run, intern_eraseDups, ih, together, List.map_cons, idxOf_eraseDups_append known]

end Interner

namespace NameTable

/-- The numbers of names one after another, and the table after them. -/
def run : NameTable → List String → List Nat × NameTable
  | t, [] => ([], t)
  | t, name :: later => ((t.intern name).1 :: (run (t.intern name).2 later).1, (run (t.intern name).2 later).2)

/-- The table has the names that are known, and its index leads to their numbers. -/
structure Shows (t : NameTable) (s : Interner) : Prop where
  names : t.names = s.strings
  index : Indexes (· % 0x100000000) t.index s.strings

variable {t : NameTable} {s : Interner}

theorem Shows.intern (shows : t.Shows s) (name : String) :
    (t.intern name).1 = (s.intern name).1 % 0x100000000 ∧ (t.intern name).2.Shows (s.intern name).2 := by
  have same : t.index.lookup name = (s.find? name).map (· % 0x100000000) := shows.index name
  cases found : s.find? name with
  | some id =>
    rw [NameTable.intern, Interner.intern, same, found]
    exact ⟨rfl, shows⟩
  | none =>
    rw [NameTable.intern, Interner.intern, same, found]
    have grown := shows.index.grow (List.idxOf?_eq_none_iff.mp found)
    rw [← shows.names] at grown ⊢
    exact ⟨rfl, rfl, grown⟩

/-- The table numbers any names as the interner does, with 32 bits. -/
theorem Shows.run (names : List String) {t : NameTable} {s : Interner} (shows : t.Shows s) :
    (t.run names).1 = (s.run names).1.map (· % 0x100000000) ∧ (t.run names).2.Shows (s.run names).2 := by
  induction names generalizing t s with
  | nil => exact ⟨rfl, shows⟩
  | cons name later ih =>
    obtain ⟨number, next⟩ := shows.intern name
    obtain ⟨numbers, last⟩ := ih next
    exact ⟨by rw [NameTable.run, Interner.run, number, numbers, List.map_cons], last⟩

theorem shows_empty : NameTable.Shows {} .empty := ⟨rfl, (indexes_nil _).grow (by simp)⟩

/-- What names are numbered: their places among the distinct names, with 32 bits. -/
theorem run_numbers (names : List String) :
    (run {} names).1 = names.map fun name => ("" :: names).eraseDups.idxOf name % 0x100000000 := by
  have ran := Interner.run_eraseDups [""] names
  have start : (⟨[""].eraseDups⟩ : Interner) = .empty := rfl
  rw [(shows_empty.run names).1, ← start, ran, List.map_map]
  rfl

theorem run_names (names : List String) : (run {} names).2.names = ("" :: names).eraseDups := by
  have ran := Interner.run_eraseDups [""] names
  have start : (⟨[""].eraseDups⟩ : Interner) = .empty := rfl
  rw [(shows_empty.run names).2.names, ← start, ran]
  rfl

end NameTable

/-! ## What tables of files and names know -/

/-- What a table of files answers to some uses and knows after them, as the uses alone tell it. -/
structure FileTable.Numbered (uses : List FileSet.Use) (answers : List (Except DiskFault Nat)) (t : FileTable) : Prop where
  /-- A use is answered with the place of its path among the distinct paths in the order of their first uses. -/
  told : answers = uses.map fun u => u.brings.map fun _ => (FileSet.paths uses).idxOf (Path.clean u.path)
  same : ∀ u v m n, (u, .ok m) ∈ uses.zip answers → (v, .ok n) ∈ uses.zip answers →
    (m = n ↔ Path.clean u.path = Path.clean v.path)
  size : t.size = (FileSet.paths uses).length
  lookup : ∀ path, t.lookup path = (FileSet.paths uses).idxOf? (Path.clean path)
  /-- A file has the content that was kept last under its path. -/
  get : ∀ id, t.get? id = (FileSet.paths uses)[id]?.map fun path =>
    (FileSet.kept uses path).elim (.ofPath id path) fun (content, flags) => .ofContent id path content flags
  back : ∀ id f, t.get? id = some f → f.id = id ∧ t.lookup f.path = some id
  interned : ∀ path id, t.lookup path = some id → t.intern path = .ok (id, t)
  /-- Content for a path that is known goes to the file of that path, with its flags, and all else stays. -/
  again : ∀ path content flags id, t.lookup path = some id → ∃ t', t.add path content flags = .ok (id, t') ∧
    t'.get? id = some (.ofContent id (Path.clean path) content flags) ∧ (∀ other ≠ id, t'.get? other = t.get? other) ∧
    (∀ p, t'.lookup p = t.lookup p) ∧ t'.size = t.size

theorem FileSet.clean_path {uses : List Use} {path : String} (met : path ∈ paths uses) : Path.clean path = path := by
  obtain ⟨u, _, named⟩ := List.mem_filterMap.mp (List.mem_eraseDups.mp met)
  obtain ⟨_, _, rfl⟩ := Option.map_eq_some_iff.mp named
  exact Path.clean_clean u.path

/-- The files that are known come back under their own numbers. -/
theorem FileSet.get?_back {uses : List Use} {id : Nat} {f : SourceFile} (there : (after uses).get? id = some f) :
    f.id = id ∧ (after uses).lookup f.path = some id := by
  rw [get?_after] at there
  obtain ⟨path, met, rfl⟩ := Option.map_eq_some_iff.mp there
  have clean := clean_path (List.mem_of_getElem? met)
  have own : ((kept uses path).elim (SourceFile.ofPath id path) fun (content, flags) => .ofContent id path content flags).path =
      path := by
    cases kept uses path <;> rfl
  rw [lookup_after, own, clean, idxOf?_eq_some (nodup_paths uses)]
  refine ⟨?_, met⟩
  cases kept uses path <;> rfl

/-- What a table of names answers for some names and knows after them, as the names alone tell it. -/
structure NameTable.Numbered (names : List String) : Prop where
  /-- A name is numbered with its place among the distinct names in the order of their first uses; the empty one is first. -/
  numbers : (run {} names).1 = names.map (("" :: names).eraseDups.idxOf ·)
  same : ∀ a b m n, (a, m) ∈ names.zip (run {} names).1 → (b, n) ∈ names.zip (run {} names).1 → (m = n ↔ a = b)
  back : ∀ name id, (name, id) ∈ names.zip (run {} names).1 → (run {} names).2.lookup id = some name
  empty : ((run {} names).2.intern "") = (0, (run {} names).2) ∧ (run {} names).2.lookup 0 = some ""
  stays : ∀ more id name, (run {} names).2.lookup id = some name → (run {} (names ++ more)).2.lookup id = some name

theorem mem_zip_map {α β : Type} {f : α → β} {xs : List α} {x : α} {y : β} (member : (x, y) ∈ xs.zip (xs.map f)) :
    x ∈ xs ∧ f x = y := by
  obtain ⟨i, there⟩ := List.mem_iff_getElem?.mp member
  obtain ⟨first, second⟩ := List.getElem?_zip_eq_some.mp there
  rw [List.getElem?_map, first] at second
  exact ⟨List.mem_of_getElem? first, Option.some.inj second⟩

theorem FileTable.Shows.numbered {uses : List FileSet.Use} {t : FileTable} (shows : t.Shows (FileSet.after uses))
    (few : (FileSet.paths uses).length ≤ 0x100000000) :
    Numbered uses (uses.map fun u => u.brings.map fun _ => (FileSet.paths uses).idxOf (Path.clean u.path)) t := by
  have number {u : FileSet.Use} {m : Nat} (answered : (u, Except.ok m) ∈
      uses.zip (uses.map fun u => u.brings.map fun _ => (FileSet.paths uses).idxOf (Path.clean u.path))) :
      Path.clean u.path ∈ FileSet.paths uses ∧ (FileSet.paths uses).idxOf (Path.clean u.path) = m := by
    obtain ⟨inside, own⟩ := mem_zip_map answered
    cases brings : u.brings with
    | error fault =>
      rw [brings] at own
      cases own
    | ok brought =>
      rw [brings] at own
      exact ⟨FileSet.mem_paths inside brings, Except.ok.inj own⟩
  constructor
  case told => rfl
  case same =>
    intro u v m n first second
    obtain ⟨used, rfl⟩ := number first
    obtain ⟨_, rfl⟩ := number second
    exact List.idxOf_inj used
  case size => exact shows.length.trans (FileSet.size_after uses)
  case lookup => exact fun path => (shows.lookup path).trans (FileSet.lookup_after uses path)
  case get => exact fun id => (shows.get? id).trans (FileSet.get?_after uses id)
  case back =>
    intro id f there
    rw [shows.get?] at there
    rw [shows.lookup]
    exact FileSet.get?_back there
  case interned =>
    intro path id found
    rw [FileTable.intern, found]
  case again =>
    intro path content flags id found
    rw [shows.lookup] at found
    obtain ⟨number, own, others, paths, same⟩ := FileSet.add_again found content flags
    rw [← FileSet.size_after] at few
    have follows := shows.add few path content flags
    rw [Follows, if_pos (by rw [same]; exact few)] at follows
    obtain ⟨t', added, shows'⟩ := follows
    refine ⟨t', by rw [added, number], (shows'.get? id).trans own, fun other apart => ?_, fun p => ?_, ?_⟩
    · rw [shows'.get?, others other apart, shows.get?]
    · rw [shows'.lookup, paths, shows.lookup]
    · exact shows'.length.trans (same.trans shows.length.symm)

/-- A table of files answers uses as long as 32 bits are enough for their paths, and else stops. -/
theorem FileTable.run_follows (uses : List FileSet.Use) :
    Follows (run {} uses) (uses.map fun u => u.brings.map fun _ => (FileSet.paths uses).idxOf (Path.clean u.path),
      FileSet.after uses) := by
  have ran := FileSet.run_after [] uses
  have start : FileSet.after [] = {} := rfl
  rw [start, List.nil_append] at ran
  rw [← ran]
  exact shows_empty.run uses (by decide)

theorem FileTable.run_ok {uses : List FileSet.Use} (few : (FileSet.paths uses).length ≤ 0x100000000) :
    ∃ answers t, run {} uses = .ok (answers, t) ∧ Numbered uses answers t := by
  have follows := FileTable.run_follows uses
  rw [Follows, if_pos (by rw [FileSet.size_after]; exact few)] at follows
  obtain ⟨t, ran, shows⟩ := follows
  exact ⟨_, t, ran, shows.numbered few⟩

theorem FileTable.run_error {uses : List FileSet.Use} (many : 0x100000000 < (FileSet.paths uses).length) :
    run {} uses = .error .fileCount := by
  have follows := FileTable.run_follows uses
  rwa [Follows, if_neg (by rw [FileSet.size_after]; exact Nat.not_le.mpr many)] at follows

theorem NameTable.numbered {names : List String} (few : ("" :: names).eraseDups.length ≤ 0x100000000) :
    Numbered names := by
  have lookup (names : List String) (id : Nat) : (run {} names).2.lookup id = ("" :: names).eraseDups[id]? := by
    rw [NameTable.lookup, run_names]
  have numbers : (run {} names).1 = names.map (("" :: names).eraseDups.idxOf ·) := by
    rw [run_numbers]
    refine List.map_congr_left fun name inside => Nat.mod_eq_of_lt (Nat.lt_of_lt_of_le ?_ few)
    exact List.idxOf_lt_length_of_mem (List.mem_eraseDups.mpr (List.mem_cons_of_mem _ inside))
  have number {name : String} {id : Nat} (numbered : (name, id) ∈ names.zip (run {} names).1) :
      name ∈ ("" :: names).eraseDups ∧ ("" :: names).eraseDups.idxOf name = id := by
    rw [numbers] at numbered
    obtain ⟨inside, own⟩ := mem_zip_map numbered
    exact ⟨List.mem_eraseDups.mpr (List.mem_cons_of_mem _ inside), own⟩
  constructor
  case numbers => exact numbers
  case same =>
    intro a b m n first second
    obtain ⟨used, rfl⟩ := number first
    obtain ⟨_, rfl⟩ := number second
    exact List.idxOf_inj used
  case back =>
    intro name id numbered
    obtain ⟨used, rfl⟩ := number numbered
    rw [lookup]
    exact List.getElem?_idxOf used
  case empty =>
    have shows := (shows_empty.run names).2
    have first : ("" :: names).eraseDups.idxOf? "" = some 0 := by
      rw [List.eraseDups_cons, List.idxOf?_cons]
      rfl
    have found : (run {} names).2.index.lookup "" = some 0 := by
      rw [shows.index, ← shows.names, run_names, first]
      rfl
    refine ⟨?_, ?_⟩
    · rw [intern, found]
    · rw [lookup, List.eraseDups_cons]
      rfl
  case stays =>
    intro more id name found
    rw [lookup] at found
    rw [lookup, ← List.cons_append, List.eraseDups_append]
    exact (List.getElem?_append_left (List.getElem?_eq_some_iff.mp found).1).trans found

/-! ## More than 32 bits can number -/

/-- Names of growing lengths. -/
def longerNames (count : Nat) : List String := (List.range count).map fun n => String.ofList (List.replicate (n + 1) 'a')

theorem length_longerNames (count : Nat) : (longerNames count).length = count := by
  rw [longerNames, List.length_map, List.length_range]

theorem nodup_longerNames {count : Nat} : (longerNames count).Nodup := by
  refine List.nodup_range.map fun m n same => ?_
  simpa using congrArg String.length same

theorem plain_of_mem_longerNames {count : Nat} {name : String} (inside : name ∈ longerNames count) : Path.Plain name := by
  obtain ⟨n, _, rfl⟩ := List.mem_map.mp inside
  have only : ∀ c ∈ (String.ofList (List.replicate (n + 1) 'a')).toList, c = 'a' := by
    rw [String.toList_ofList]
    exact fun c => List.eq_of_mem_replicate
  refine ⟨fun empty => ?_, fun dot => ?_, fun up => ?_, fun slash => absurd (only _ slash) (by decide)⟩
  · simpa using congrArg String.length empty
  · rw [dot] at only
    exact absurd (only '.' (by decide)) (by decide)
  · rw [up] at only
    exact absurd (only '.' (by decide)) (by decide)

theorem FileSet.paths_intern {names : List String} (distinct : names.Nodup) (plain : ∀ name ∈ names, Path.Plain name) :
    paths (names.map .intern) = names := by
  have named : (names.map Use.intern).filterMap Use.named? = names := by
    rw [List.filterMap_map]
    refine (List.filterMap_congr fun name inside => ?_).trans List.filterMap_some
    exact congrArg some (plain name inside).clean
  rw [paths, named, eraseDups_of_nodup distinct]

/-- The number of the last of some names is how many there are, with 32 bits. -/
theorem last_number (count : Nat) :
    (NameTable.run {} (longerNames (count + 1))).1.getLast? = some ((count + 1) % 0x100000000) := by
  have distinct : ("" :: longerNames (count + 1)).Nodup :=
    List.nodup_cons.mpr ⟨fun empty => (plain_of_mem_longerNames empty).1 rfl, nodup_longerNames⟩
  have last : (longerNames (count + 1))[count]? = some (String.ofList (List.replicate (count + 1) 'a')) := by
    simp [longerNames]
  have place : ("" :: longerNames (count + 1)).idxOf (String.ofList (List.replicate (count + 1) 'a')) = count + 1 :=
    idxOf_eq distinct last
  rw [NameTable.run_numbers, eraseDups_of_nodup distinct, List.getLast?_map, List.getLast?_eq_getElem?, length_longerNames]
  show (longerNames (count + 1))[count]?.map _ = _
  rw [last, Option.map_some, place]

/-- The numbers of files and of names are stable. Whatever is done to a table of files with at most `2 ^ 32` paths, and
    whatever names are interned, of which there are at most `2 ^ 32`, numbers are places in the order of first use, and
    stand for one path or name for good. With more paths the program stops. -/
theorem numbers_stable :
    (∀ uses : List FileSet.Use, (FileSet.paths uses).length ≤ 0x100000000 →
      ∃ answers t, FileTable.run {} uses = .ok (answers, t) ∧ FileTable.Numbered uses answers t) ∧
    (∀ uses : List FileSet.Use, 0x100000000 < (FileSet.paths uses).length →
      FileTable.run {} uses = .error .fileCount) ∧
    ∀ names : List String, ("" :: names).eraseDups.length ≤ 0x100000000 → NameTable.Numbered names :=
  ⟨fun _ few => FileTable.run_ok few, fun _ many => FileTable.run_error many, fun _ few => NameTable.numbered few⟩

/-- Two files, one of them again, and two names. -/
theorem numbers_stable_few :
    (∃ answers t, FileTable.run {} [.intern "a", .addInMemory "b" [], .add "a" [0x78] {}] = .ok (answers, t) ∧
      FileTable.Numbered [.intern "a", .addInMemory "b" [], .add "a" [0x78] {}] answers t) ∧
    FileTable.run {} ((longerNames 0x100000001).map .intern) = .error .fileCount ∧ NameTable.Numbered ["a", "b"] := by
  refine ⟨numbers_stable.1 _ (by decide), numbers_stable.2.1 _ ?_, numbers_stable.2.2 _ (by decide)⟩
  rw [FileSet.paths_intern nodup_longerNames fun _ => plain_of_mem_longerNames, length_longerNames]
  decide

/-- A file that is known from disk with carriage returns and is then added from memory loses that flag, the path behind
    the last number stops the program, and the name behind the last number gets that of the empty name. -/
theorem numbers_run_out :
    (∃ t, FileTable.run {} [.add "a" [] .hadCarriage] = .ok ([.ok 0], t) ∧ (t.get? 0).map (·.flags) = some .hadCarriage) ∧
    (∃ t, FileTable.run {} [.add "a" [] .hadCarriage, .addInMemory "a" [0x78]] = .ok ([.ok 0, .ok 0], t) ∧
      (t.get? 0).map (·.flags) = some .inMemory) ∧
    FileTable.run {} ((longerNames 0x100000001).map .intern) = .error .fileCount ∧
    "" ∉ longerNames 0x100000000 ∧ (NameTable.run {} (longerNames 0x100000000)).1.getLast? = some 0 := by
  refine ⟨⟨_, rfl, rfl⟩, ⟨_, rfl, rfl⟩, FileTable.run_error ?_, fun empty => (plain_of_mem_longerNames empty).1 rfl, ?_⟩
  · rw [FileSet.paths_intern nodup_longerNames fun _ => plain_of_mem_longerNames, length_longerNames]
    decide
  · exact last_number 0xFFFFFFFF

end PineLang
