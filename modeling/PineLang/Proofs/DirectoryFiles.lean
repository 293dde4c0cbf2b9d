import Mathlib.Data.List.Basic
import PineLang.Proofs.LibraryAnswers
import PineLang.Source.Directory

/-!
The files that a directory is parsed into: every source file below it once, in the order of the paths
(`sourcesBelow_spec`), and each of them the file that loading its path alone gives, but for its number
(`loadFiles_alone`).
-/
namespace PineLang

/-! ## Paths -/

/-- The paths of the files below a place, in the order of the disk. -/
def Disk.filePaths (d : Disk) (dir : String) (loc : Location) : List String :=
  d.entries.filterMap fun x => match x.2 with
    | .file _ _ => if loc.isPrefixOf x.1 then some (Path.join (dir :: x.1.drop loc.length)) else none
    | .dir => none

/-- The paths of the files that an entry is or has below it. -/
def Disk.pathsAt (d : Disk) (dir : String) (loc : Location) : Entry → List String
  | .dir => d.filePaths dir loc
  | .file _ _ => [dir]

theorem Disk.filesBelow_paths (d : Disk) (dir : String) (loc : Location) :
    ((d.filesBelow loc).map fun f => Path.join (dir :: f.1)).Perm (d.filePaths dir loc) := by
  unfold filesBelow
  refine ((List.mergeSort_perm _ _).map _).trans (.of_eq ?_)
  rw [List.map_filterMap, filePaths]
  refine List.filterMap_congr fun x _ => ?_
  obtain ⟨place, e⟩ := x
  cases e with
  | dir => rfl
  | file content runnable =>
    simp only
    split <;> rfl

/-- The sources below a path are all files there with the ending of a source, each once, in the order of their paths. -/
theorem sourcesBelow_spec {d : Disk} {dir : String} {paths : List String} (found : sourcesBelow d dir = .ok paths) :
    ∃ loc e, d.find dir = .ok (loc, e) ∧ paths.Pairwise (· ≤ ·) ∧
      paths.Perm ((d.pathsAt dir loc e).filter (·.endsWith sourceExt)) := by
  unfold sourcesBelow at found
  split at found
  · cases found
  · next loc content runnable here =>
    cases found
    refine ⟨loc, _, here, ?_, ?_⟩
    · split <;> simp
    · rw [Disk.pathsAt, List.filter_singleton, cond_eq_ite]
  · next loc here =>
    cases found
    refine ⟨loc, _, here, ?_, ?_⟩
    · refine (List.pairwise_mergeSort ?_ ?_ _).imp of_decide_eq_true
      · intro a b c first second
        simp only [decide_eq_true_eq] at first second ⊢
        exact String.le_trans first second
      · intro a b
        simpa using String.le_total a b
    · exact (List.mergeSort_perm _ _).trans ((d.filesBelow_paths dir loc).filter _)

/-! ## Loading -/

/-- The file of a number and a path as it is on the disk. -/
def Disk.source (d : Disk) (id : Nat) (path : String) : Except LoadFault SourceFile :=
  match d.read (Path.clean path) with
  | .error f => .error ⟨path, .disk f⟩
  | .ok raw => .ok (.ofContent id (Path.clean path) (readText raw).1 (readText raw).2)

/-- A file set that keeps no content of its own. -/
def FileSet.AllNamed (s : FileSet) : Prop := ∀ r ∈ s.records, ∃ path, r = .named path

theorem FileSet.AllNamed.intern {s : FileSet} (named : s.AllNamed) (path : String) : (s.intern path).2.AllNamed := by
  unfold FileSet.intern
  split
  · exact named
  · intro r member
    rcases List.mem_append.mp member with old | new
    · exact named r old
    · exact ⟨_, List.mem_singleton.mp new⟩

/-- A file set without content of its own has the file of a path on the disk. -/
theorem FileSet.AllNamed.current {s : FileSet} (named : s.AllNamed) (d : Disk) (path : String) :
    ((s.intern path).2.current d.read (s.intern path).1).mapError (LoadFault.mk path) = d.source (s.intern path).1 path := by
  have here : (s.intern path).2.record? (s.intern path).1 = some (.named (Path.clean path)) := by
    cases found : s.lookup path with
    | none =>
      rw [intern_new found]
      simp [record?]
    | some id =>
      obtain ⟨r, known, same⟩ := lookup_some found
      obtain ⟨p, rfl⟩ := named r (List.mem_of_getElem? known)
      have same : p = Path.clean path := same
      rw [show s.intern path = (id, s) by rw [FileSet.intern, found], ← same]
      exact known
  unfold FileSet.current Disk.source
  rw [here]
  simp only
  cases d.read (Path.clean path) <;> rfl

namespace CachedLibrary

variable {d : Disk} {l : Library}

/-- A library that was given no content of its own loads the file on the disk. -/
theorem loadFile_spec (sound : l.Sound d.read) (named : l.files.AllNamed) (path : String) :
    (Library.loadFile l d path).1 = d.source (l.files.intern path).1 path ∧
      (Library.loadFile l d path).2.Sound d.read ∧ (Library.loadFile l d path).2.files.AllNamed := by
  have faithful := @AdaptiveCache.faithful Nat SourceFile _ _ _
  obtain ⟨opened, files, after⟩ := ask_spec faithful sound (.openPath path)
  have known := named.current d path
  have named := named.intern path
  unfold Library.loadFile
  simp only [ask, Call.answer, Call.met, Prod.map, id, Answer.number.injEq] at opened files after
  generalize l.openPath d.read path = reached at opened files after
  obtain ⟨r, l'⟩ := reached
  simp only at opened files after
  cases now : (l.files.intern path).2.current d.read (l.files.intern path).1 with
  | error f =>
    rw [now] at opened known
    cases opened
    exact ⟨known, after, files ▸ named⟩
  | ok f =>
    rw [now] at opened
    cases opened
    obtain ⟨l'', fetched, kept, later⟩ := fetch_spec faithful after (l.files.intern path).1
    rw [files] at fetched kept
    simp only [Except.map, fetched]
    exact ⟨known, later, kept ▸ named⟩

end CachedLibrary

theorem Disk.source_number {d : Disk} {id : Nat} {path : String} {f : SourceFile} (there : d.source id path = .ok f)
    (other : Nat) : d.source other path = .ok { f with id := other } := by
  unfold source at there ⊢
  split at there
  · cases there
  · cases there
    rfl

/-- Each of the files that are loaded one after the other is the one that loading it alone gives, but for its number. -/
theorem loadFiles_alone {d : Disk} : ∀ {paths : List String} {l : Library} {files : List SourceFile}, l.Sound d.read →
    l.files.AllNamed → (l.loadFiles d paths).1 = .ok files →
    List.Forall₂ (fun path f => (Library.empty.loadFile d path).1 = .ok { f with id := 0 }) paths files
  | [], _, _, _, _, loaded => by
    cases loaded
    exact .nil
  | path :: paths, l, files, sound, named, loaded => by
    obtain ⟨first, sound', named'⟩ := CachedLibrary.loadFile_spec sound named path
    rw [Library.loadFiles] at loaded
    generalize l.loadFile d path = reached at first sound' named' loaded
    obtain ⟨r, l'⟩ := reached
    cases r with
    | error f => cases loaded
    | ok f =>
      simp only at loaded
      cases others : (l'.loadFiles d paths).1 with
      | error g =>
        rw [others] at loaded
        cases loaded
      | ok fs =>
        rw [others] at loaded
        cases loaded
        refine .cons ?_ (loadFiles_alone sound' named' others)
        obtain ⟨alone, _, _⟩ := CachedLibrary.loadFile_spec (d := d) (CachedLibrary.ofFiles_sound {} 0) nofun path
        exact alone.trans (Disk.source_number first.symm 0)

theorem length_loadFiles {d : Disk} : ∀ {paths : List String} {l : Library} {files : List SourceFile},
    (l.loadFiles d paths).1 = .ok files → files.length = paths.length
  | [], _, _, loaded => by
    cases loaded
    rfl
  | path :: paths, l, files, loaded => by
    rw [Library.loadFiles] at loaded
    generalize l.loadFile d path = reached at loaded
    obtain ⟨r, l'⟩ := reached
    cases r with
    | error f => cases loaded
    | ok f =>
      simp only at loaded
      cases others : (l'.loadFiles d paths).1 with
      | error g =>
        rw [others] at loaded
        cases loaded
      | ok fs =>
        rw [others] at loaded
        cases loaded
        exact congrArg (· + 1) (length_loadFiles others)

end PineLang
