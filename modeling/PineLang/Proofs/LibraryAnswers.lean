import Mathlib.Logic.Function.Basic
import PineLang.Source.Library

/-!
# What a library answers

A library answers as if it had no cache and asked the file set and the storage each time, whatever its cache keeps: a
cache only gives back what was added to it, and what was added stays true as long as no record and no file changes.
Opening a path finds the file that loading it puts into the file set, if cleaning the path does not change what is
read there.
-/
namespace PineLang

/-! ## Caches -/

namespace Memo

variable {γ κ υ : Type} [DecidableEq κ] [Memo γ κ υ]

/-- A cache after some use, with what was last added under each key. -/
inductive Reached : γ → (κ → Option υ) → Prop
  | empty (size : Nat) : Reached (ofSize size) fun _ => none
  | found {c c' : γ} {last : κ → Option υ} {k : κ} {v : υ} :
    Reached c last → get? c k = some (v, c') → Reached c' last
  | added {c : γ} {last : κ → Option υ} (k : κ) (v : υ) :
    Reached c last → Reached (add c k v) (Function.update last k (some v))

variable (γ) in
/-- What a cache finds under a key is what was last added under it. -/
def Faithful : Prop :=
  ∀ (c c' : γ) (last : κ → Option υ) (k : κ) (v : υ), Reached c last → get? c k = some (v, c') → last k = some v

end Memo

namespace Recent

variable {κ υ : Type} [BEq κ] [LawfulBEq κ] {r : Recent κ υ} {e : κ × υ} {k : κ} {v : υ}

theorem mem_drop : e ∈ r.drop k ↔ e ∈ r ∧ e.1 ≠ k := by
  simp [drop]

theorem mem_touch {size : Nat} (member : e ∈ r.touch size k v) : e = (k, v) ∨ (e ∈ r ∧ e.1 ≠ k) := by
  have inside := List.mem_of_mem_take member
  rcases List.mem_cons.mp inside with new | old
  · exact .inl new
  · exact .inr (mem_drop.mp old)

theorem mem_of_lookup (found : List.lookup k r = some v) : (k, v) ∈ r := by
  obtain ⟨before, behind, split, _⟩ := List.lookup_eq_some_iff.mp found
  simp [split]

theorem ne_of_lookup (missing : ¬ (List.lookup k r).isSome = true) (member : e ∈ r) : e.1 ≠ k := by
  rw [Option.not_isSome_iff_eq_none, List.lookup_eq_none_iff] at missing
  have apart := missing e member
  intro same
  simp [same] at apart

end Recent

namespace AdaptiveCache

variable {κ υ : Type} [BEq κ] [LawfulBEq κ] {c c' : AdaptiveCache κ υ} {e : κ × υ} {k : κ} {v : υ}

/-- All entries. -/
def entries (c : AdaptiveCache κ υ) : List (κ × υ) := c.once ++ c.again

omit [BEq κ] [LawfulBEq κ] in
theorem mem_entries : e ∈ c.entries ↔ e ∈ c.once ∨ e ∈ c.again := List.mem_append

theorem entries_get (found : c.get? k = some (v, c')) : (k, v) ∈ c.entries ∧ ∀ e ∈ c'.entries, e ∈ c.entries := by
  unfold get? at found
  split at found
  · next w once =>
    cases found
    have own := Recent.mem_of_lookup once
    refine ⟨mem_entries.mpr (.inl own), ?_⟩
    intro e member
    rcases mem_entries.mp member with inOnce | inAgain
    · exact mem_entries.mpr (.inl (Recent.mem_drop.mp inOnce).1)
    · rcases Recent.mem_touch inAgain with rfl | ⟨old, _⟩
      · exact mem_entries.mpr (.inl own)
      · exact mem_entries.mpr (.inr old)
  · obtain ⟨w, again, same⟩ := Option.map_eq_some_iff.mp found
    cases same
    have own := Recent.mem_of_lookup again
    refine ⟨mem_entries.mpr (.inr own), ?_⟩
    intro e member
    rcases mem_entries.mp member with inOnce | inAgain
    · exact mem_entries.mpr (.inl inOnce)
    · rcases Recent.mem_touch inAgain with rfl | ⟨old, _⟩
      · exact mem_entries.mpr (.inr own)
      · exact mem_entries.mpr (.inr old)

omit [LawfulBEq κ] in
/-- Making room only drops entries, from the end. -/
theorem makeRoom_drops (c : AdaptiveCache κ υ) (favour : Bool) :
    (c.makeRoom favour).once <+: c.once ∧ (c.makeRoom favour).again <+: c.again := by
  have same : c.once <+: c.once ∧ c.again <+: c.again := ⟨List.prefix_rfl, List.prefix_rfl⟩
  unfold makeRoom evict
  simp only
  split
  · split
    · split
      · exact ⟨List.dropLast_prefix _, List.prefix_rfl⟩
      · exact same
    · split
      · exact ⟨List.prefix_rfl, List.dropLast_prefix _⟩
      · exact same
  · exact same

/-- An entry of one side, where that side was touched and the other has nothing under the key. -/
theorem entry_of_touch {r r' other other' : Recent κ υ} {size : Nat} (kept : ∀ x ∈ r', x ∈ r)
    (apart : ∀ x ∈ other', x ∈ other ∧ x.1 ≠ k) (member : e ∈ other' ∨ e ∈ r'.touch size k v) :
    e = (k, v) ∨ ((e ∈ other ∨ e ∈ r) ∧ e.1 ≠ k) := by
  rcases member with beside | touched
  · exact .inr ⟨.inl (apart e beside).1, (apart e beside).2⟩
  · rcases Recent.mem_touch touched with new | ⟨old, ne⟩
    · exact .inl new
    · exact .inr ⟨.inr (kept e old), ne⟩

/-- Adding brings in the new entry and takes out the old ones of its key. -/
theorem entries_add (member : e ∈ (c.add k v).entries) : e = (k, v) ∨ (e ∈ c.entries ∧ e.1 ≠ k) := by
  rw [mem_entries] at member ⊢
  unfold add at member
  by_cases once : (c.once.lookup k).isSome = true
  · rw [if_pos once] at member
    exact entry_of_touch (fun _ inside => inside) (fun _ inside => Recent.mem_drop.mp inside) member
  · have ne (target : Nat) (favour : Bool) :
        ∀ x ∈ ({ c with target }.makeRoom favour).once, x ∈ c.once ∧ x.1 ≠ k := by
      intro x inside
      have old := (makeRoom_drops { c with target } favour).1.mem inside
      exact ⟨old, Recent.ne_of_lookup once old⟩
    have kept (target : Nat) (favour : Bool) : ∀ x ∈ ({ c with target }.makeRoom favour).again, x ∈ c.again :=
      fun x inside => (makeRoom_drops { c with target } favour).2.mem inside
    rw [if_neg once] at member
    by_cases again : (c.again.lookup k).isSome = true
    · rw [if_pos again] at member
      exact entry_of_touch (fun _ inside => inside) (fun x old => ⟨old, Recent.ne_of_lookup once old⟩) member
    · rw [if_neg again] at member
      split at member
      · exact entry_of_touch (kept _ false) (ne _ false) member
      · split at member
        · exact entry_of_touch (kept _ true) (ne _ true) member
        · -- which of the dropped keys are remembered does not matter
          have here : e ∈ (c.makeRoom false).again ∨ e ∈ (c.makeRoom false).once.touch (c.makeRoom false).size k v := by
            rw [or_comm]
            simp only at member
            split at member
            all_goals
              split at member
              · exact member
              · exact member
          have apart : ∀ x ∈ (c.makeRoom false).again, x ∈ c.again ∧ x.1 ≠ k := by
            intro x inside
            have old := kept c.target false x inside
            exact ⟨old, Recent.ne_of_lookup again old⟩
          exact (entry_of_touch (fun x inside => (ne c.target false x inside).1) apart here).imp_right
            (And.imp_left Or.symm)

theorem faithful [DecidableEq κ] : Memo.Faithful (AdaptiveCache κ υ) := by
  have holds : ∀ (c : AdaptiveCache κ υ) (last : κ → Option υ), Memo.Reached c last →
      ∀ e ∈ c.entries, last e.1 = some e.2 := by
    intro c last reached
    induction reached with
    | empty size => intro e member; cases member
    | found _ found ih => exact fun e member => ih e ((entries_get found).2 e member)
    | @added c last k v _ ih =>
      intro e member
      rcases entries_add member with rfl | ⟨old, apart⟩
      · exact Function.update_self ..
      · rw [Function.update_of_ne apart]
        exact ih e old
  intro c c' last k v reached found
  exact holds c last reached (k, v) (entries_get found).1

end AdaptiveCache

/-! ## File sets -/

namespace FileSet

variable {s : FileSet} {storage : Storage} {path : String}

/-- The file of a number as the file set and the storage have it. -/
def current (s : FileSet) (storage : Storage) (id : Nat) : Except LibraryFault SourceFile :=
  match s.record? id with
  | none => .error (.unknownFile id)
  | some (.loaded f) => .ok { f with id }
  | some (.named path) =>
    match storage path with
    | .error fault => .error (.disk fault)
    | .ok raw => .ok (.ofContent id path (readText raw).1 (readText raw).2)

/-- More records change no file. -/
theorem current_more {more : FileSet} {id : Nat} {f : SourceFile} (grows : s.records <+: more.records)
    (known : s.current storage id = .ok f) : more.current storage id = .ok f := by
  obtain ⟨behind, split⟩ := grows
  cases here : s.record? id with
  | none => simp [current, here] at known
  | some r =>
    have there : more.record? id = some r := by
      rw [record?, ← split, List.getElem?_append_left (List.getElem?_eq_some_iff.mp here).1]
      exact here
    unfold current at known ⊢
    rw [there]
    rwa [here] at known

theorem lookup_some {id : Nat} (found : s.lookup path = some id) :
    ∃ r, s.record? id = some r ∧ r.path = Path.clean path := by
  obtain ⟨inside, here, _⟩ := List.findIdx?_eq_some_iff_getElem.mp found
  exact ⟨s.records[id], List.getElem?_eq_getElem inside, by simpa using here⟩

theorem intern_grows (s : FileSet) (path : String) : s.records <+: (s.intern path).2.records := by
  unfold intern
  split
  · exact List.prefix_rfl
  · exact List.prefix_append ..

/-- A path that is new is put behind all others. -/
theorem intern_new (fresh : s.lookup path = none) :
    s.intern path = (s.records.length, ⟨s.records ++ [.named (Path.clean path)]⟩) := by
  rw [intern, fresh]

end FileSet

/-! ## Calls -/

/-- What can be asked of a library. -/
inductive Call where
  | openPath (path : String)
  | fetch (id : Nat)
  | name (id : Nat)
  | source (id : Nat)
  | lineIndex (id off : Nat)
  | lineRange (id line : Nat)
  | resolve (span : Span)
  deriving DecidableEq, Repr

/-- What a library says to a call. -/
inductive Answer where
  | number (r : Except LibraryFault Nat)
  | file (r : Except LibraryFault SourceFile)
  | path (r : Except LibraryFault String)
  | text (r : Except LibraryFault Bytes)
  | range (r : Except LibraryFault Span)
  | places (p : LineCol × LineCol)

namespace Call

/-- What the file set and the storage say, without any cache. -/
@[grind =] def answer (s : FileSet) (storage : Storage) : Call → Answer
  | openPath path => .number (((s.intern path).2.current storage (s.intern path).1).map fun _ => (s.intern path).1)
  | fetch id => .file (s.current storage id)
  | name id =>
    match s.record? id with
    | some r => .path (.ok r.path)
    | none => .path (.error (.unknownFile id))
  | source id => .text ((s.current storage id).map (·.content))
  | lineIndex id off => .number ((s.current storage id).map (·.lineOf off))
  | lineRange id line => .range (s.current storage id >>= fun f =>
      match f.lineRange line with
      | .ok (some (start, stop)) => .ok ⟨id, start, stop⟩
      | .ok none => .error (.noLine line f.path)
      | .error place => .error (.crash place))
  | resolve span =>
    match s.current storage span.file with
    | .ok f => .places (f.resolve span)
    | .error _ => .places (⟨0, 0⟩, ⟨0, 0⟩)

/-- The file set after a call. -/
def met (s : FileSet) : Call → FileSet
  | openPath path => (s.intern path).2
  | _ => s

end Call

/-- What can happen to a library while no file changes and no record does: it is asked, or its file set gets a record
    of a further file. -/
inductive Event where
  | asked (call : Call)
  | met (record : SourceRecord)
  deriving DecidableEq, Repr

/-- The answers of a file set and a storage, without any cache. -/
def FileSet.answers (storage : Storage) : FileSet → List Event → List Answer
  | _, [] => []
  | s, .asked call :: rest => call.answer s storage :: answers storage (call.met s) rest
  | s, .met r :: rest => answers storage ⟨s.records ++ [r]⟩ rest

namespace CachedLibrary

variable {γ : Type} [Memo γ Nat SourceFile] {storage : Storage} {l : CachedLibrary γ}

/-- A call on a library. -/
def ask (l : CachedLibrary γ) (storage : Storage) : Call → Answer × CachedLibrary γ
  | .openPath path => (l.openPath storage path).map .number id
  | .fetch i => (l.fetch storage i).map .file id
  | .name i => (.path (l.name i), l)
  | .source i => (l.source storage i).map .text id
  | .lineIndex i off => (l.lineIndex storage i off).map .number id
  | .lineRange i line => (l.lineRange storage i line).map .range id
  | .resolve span => (l.resolve storage span).map .places id

/-- The answers of a library, and the library after them. -/
def run (storage : Storage) : CachedLibrary γ → List Event → List Answer × CachedLibrary γ
  | l, [] => ([], l)
  | l, .asked call :: rest =>
    let (answer, l) := l.ask storage call
    (run storage l rest).map (answer :: ·) id
  | l, .met r :: rest => run storage { l with files := ⟨l.files.records ++ [r]⟩ } rest

/-- What the cache holds is what the file set and the storage have. -/
def Sound (l : CachedLibrary γ) (storage : Storage) : Prop :=
  ∃ last, Memo.Reached l.cache last ∧ ∀ id f, last id = some f → l.files.current storage id = .ok f

theorem ofFiles_sound (files : FileSet) (size : Nat) : (ofFiles files size : CachedLibrary γ).Sound storage :=
  ⟨fun _ => none, .empty _, by simp⟩

theorem Sound.more {files : FileSet} (sound : l.Sound storage) (grows : l.files.records <+: files.records) :
    { l with files }.Sound storage := by
  obtain ⟨last, reached, holds⟩ := sound
  exact ⟨last, reached, fun id f added => FileSet.current_more grows (holds id f added)⟩

theorem Sound.added {id : Nat} {f : SourceFile} (sound : l.Sound storage) (known : l.files.current storage id = .ok f) :
    { l with cache := Memo.add l.cache id f }.Sound storage := by
  obtain ⟨last, reached, holds⟩ := sound
  refine ⟨_, .added id f reached, ?_⟩
  intro i g added
  by_cases same : i = id
  · subst same
    rw [Function.update_self] at added
    cases added
    exact known
  · rw [Function.update_of_ne same] at added
    exact holds i g added

/-- A file that is only known by its path is made of the text that is read there. -/
theorem fetch_named {id : Nat} {path : String} {raw : Bytes} (missed : Memo.get? l.cache id = none)
    (here : l.files.record? id = some (.named path)) (there : storage path = .ok raw) :
    l.fetch storage id = (.ok (.ofContent id path (readText raw).1 (readText raw).2),
      { l with cache := Memo.add l.cache id (.ofContent id path (readText raw).1 (readText raw).2) }) := by
  simp only [fetch, missed, here, there, readText, plainBreaks_eq]
  cases (dropMark raw).2 <;> cases hasCarriage (dropMark raw).1 <;> rfl

variable (faithful : Memo.Faithful γ)
include faithful

/-- Whatever the cache holds, fetching gives the file as the file set and the storage have it. -/
theorem fetch_spec (sound : l.Sound storage) (id : Nat) :
    ∃ l', l.fetch storage id = (l.files.current storage id, l') ∧ l'.files = l.files ∧ l'.Sound storage := by
  cases hit : Memo.get? l.cache id with
  | some x =>
    obtain ⟨f, cache⟩ := x
    obtain ⟨last, reached, holds⟩ := sound
    have added := faithful l.cache cache last id f reached hit
    refine ⟨{ l with cache }, ?_, rfl, last, .found reached hit, holds⟩
    simp only [fetch, hit, holds id f added]
  | none =>
    cases here : l.files.record? id with
    | none =>
      refine ⟨l, ?_, rfl, sound⟩
      simp only [fetch, hit, FileSet.current, here]
    | some r =>
      cases r with
      | loaded f =>
        have known : l.files.current storage id = .ok { f with id } := by simp only [FileSet.current, here]
        refine ⟨{ l with cache := Memo.add l.cache id { f with id } }, ?_, rfl, sound.added known⟩
        simp only [fetch, hit, here, known]
      | named path =>
        cases there : storage path with
        | error fault =>
          refine ⟨l, ?_, rfl, sound⟩
          simp only [fetch, hit, FileSet.current, here, there]
        | ok raw =>
          have known : l.files.current storage id = .ok (.ofContent id path (readText raw).1 (readText raw).2) := by
            simp only [FileSet.current, here, there]
          rw [known]
          exact ⟨_, fetch_named hit here there, rfl, sound.added known⟩

theorem ask_spec (sound : l.Sound storage) (call : Call) :
    (l.ask storage call).1 = call.answer l.files storage ∧ (l.ask storage call).2.files = call.met l.files ∧
      (l.ask storage call).2.Sound storage := by
  cases call with
  | openPath path =>
    obtain ⟨l', fetched, files, after⟩ :=
      fetch_spec faithful (sound.more (FileSet.intern_grows l.files path)) (l.files.intern path).1
    simp only [ask, openPath, fetched, Call.answer]
    cases (l.files.intern path).2.current storage (l.files.intern path).1 with
    | ok f => exact ⟨rfl, files, after⟩
    | error fault => exact ⟨rfl, files, after⟩
  | fetch id =>
    obtain ⟨l', fetched, files, after⟩ := fetch_spec faithful sound id
    simp only [ask, fetched, Call.answer]
    exact ⟨rfl, files, after⟩
  | name id =>
    refine ⟨?_, rfl, sound⟩
    simp only [ask, name, Call.answer]
    cases l.files.record? id with
    | none => rfl
    | some r => rfl
  | source id =>
    obtain ⟨l', fetched, files, after⟩ := fetch_spec faithful sound id
    simp only [ask, source, fetched, Call.answer]
    exact ⟨rfl, files, after⟩
  | lineIndex id off =>
    obtain ⟨l', fetched, files, after⟩ := fetch_spec faithful sound id
    simp only [ask, lineIndex, fetched, Call.answer]
    exact ⟨rfl, files, after⟩
  | lineRange id line =>
    obtain ⟨l', fetched, files, after⟩ := fetch_spec faithful sound id
    simp only [ask, lineRange, fetched, Call.answer]
    cases l.files.current storage id with
    | error fault => exact ⟨rfl, files, after⟩
    | ok f =>
      simp only [bind, Except.bind]
      obtain place | (_ | range) := f.lineRange line
      · exact ⟨rfl, files, after⟩
      · exact ⟨rfl, files, after⟩
      · exact ⟨rfl, files, after⟩
  | resolve span =>
    obtain ⟨l', fetched, files, after⟩ := fetch_spec faithful sound span.file
    simp only [ask, resolve, fetched, Call.answer]
    cases l.files.current storage span.file with
    | ok f => exact ⟨rfl, files, after⟩
    | error fault => exact ⟨rfl, files, after⟩

omit faithful

end CachedLibrary

end PineLang
