import PineLang.Disk.Tree

/-!
Where paths lead and what writing changes. A path that ends in a plain name leads to a place of that
name, so paths with different last names never meet (`read_write_other`), whatever stands before the
names.
-/
namespace PineLang

namespace Path

/-- A name that stands for an entry of a directory. -/
def Plain (n : String) : Prop := n ≠ "" ∧ n ≠ "." ∧ n ≠ ".." ∧ '/' ∉ n.toList

instance (n : String) : Decidable (Plain n) := inferInstanceAs (Decidable (_ ∧ _ ∧ _ ∧ _))

/-- A path whose last part is this name. -/
def EndsIn (p n : String) : Prop := Plain n ∧ ∃ above, parts p = above ++ [n]

theorem parts_of_noSlash {p : String} (noSlash : '/' ∉ p.toList) : parts p = [p] := by
  simp [parts, List.splitOn_eq_singleton noSlash]

theorem parts_slash (a b : String) : parts (a ++ "/" ++ b) = parts a ++ parts b := by
  have split : (a ++ "/" ++ b).toList = a.toList ++ '/' :: b.toList := by simp
  rw [parts, split, List.splitOn_append_cons_self, List.map_append]
  rfl

theorem parts_intercalate {ss : List String} (noSlash : ∀ s ∈ ss, '/' ∉ s.toList) (some : ss ≠ []) :
    parts ("/".intercalate ss) = ss := by
  have single : "/".toList = ['/'] := rfl
  rw [parts, String.toList_intercalate, single,
    List.splitOn_intercalate '/' (by simpa using noSlash) (by simpa using some)]
  simp

/-- A name with an ending of its own is plain. -/
theorem endsIn_extended {v e : String} (stem : '/' ∉ v.toList) (noSlash : '/' ∉ e.toList) {c : Char}
    (last : e.toList.getLast? = some c) (notDot : c ≠ '.') : EndsIn (v ++ e) (v ++ e) := by
  have whole : '/' ∉ (v ++ e).toList := by
    rw [String.toList_append, List.mem_append, not_or]
    exact ⟨stem, noSlash⟩
  have ending : (v ++ e).toList.getLast? = some c := by
    rw [String.toList_append, List.getLast?_append, last]
    rfl
  have notDots : ∀ n, n.toList.getLast? ≠ some c → v ++ e ≠ n := by
    rintro n other rfl
    exact other ending
  refine ⟨⟨notDots "" (by simp), notDots "." ?_, notDots ".." ?_, whole⟩, [], parts_of_noSlash whole⟩
  · simpa using Ne.symm notDot
  · simpa using Ne.symm notDot

private theorem noSlash_of_mem_splitOn {part : List Char} : ∀ {cs : List Char}, part ∈ cs.splitOn '/' → '/' ∉ part
  | [], member => by
    rw [List.splitOn_nil, List.mem_singleton] at member
    simp [member]
  | c :: cs, member => by
    rw [List.splitOn_cons_eq_if_modifyHead] at member
    split at member
    · rcases List.mem_cons.mp member with rfl | inside
      · simp
      · exact noSlash_of_mem_splitOn inside
    · next other =>
      have rest : ∀ q ∈ cs.splitOn '/', '/' ∉ q := fun q inside => noSlash_of_mem_splitOn inside
      generalize cs.splitOn '/' = ps at member rest
      cases ps with
      | nil => simp at member
      | cons p ps =>
        rcases List.mem_cons.mp member with rfl | inside
        · have plain := rest p (List.mem_cons_self ..)
          simp only [List.mem_cons, not_or]
          exact ⟨fun same => other (by simp [same.symm]), plain⟩
        · exact rest part (List.mem_cons_of_mem p inside)

theorem noSlash_of_mem_parts {p s : String} (member : s ∈ parts p) : '/' ∉ s.toList := by
  obtain ⟨cs, inside, rfl⟩ := List.mem_map.mp member
  rw [String.toList_ofList]
  exact noSlash_of_mem_splitOn inside

/-- The last part of a path. -/
def last (p : String) : String := (parts p).getLast?.getD ""

theorem EndsIn.last_eq {p n : String} (ends : EndsIn p n) : last p = n := by
  obtain ⟨_, above, split⟩ := ends
  simp [last, split]

/-! ## Cleaning keeps the last name -/

theorem mem_cleanParts {rooted : Bool} {s : String} : ∀ {ps done : List String}, s ∈ cleanParts rooted done ps →
    s = ".." ∨ s ∈ done ∨ (s ∈ ps ∧ ¬ (s == "" || s == ".") = true) := by
  intro ps done
  fun_induction cleanParts rooted done ps with
  | case1 done =>
    intro member
    exact .inr (.inl (by simpa using member))
  | case2 done p rest _ ih =>
    intro member
    obtain up | old | ⟨inside, kept⟩ := ih member
    · exact .inl up
    · exact .inr (.inl old)
    · exact .inr (.inr ⟨List.mem_cons_of_mem p inside, kept⟩)
  | case3 p rest _ _ ih =>
    intro member
    obtain up | old | ⟨inside, kept⟩ := ih member
    · exact .inl up
    · split at old
      · cases old
      · exact .inl (List.mem_singleton.mp old)
    · exact .inr (.inr ⟨List.mem_cons_of_mem p inside, kept⟩)
  | case4 p rest _ _ tail ih =>
    intro member
    obtain up | old | ⟨inside, kept⟩ := ih member
    · exact .inl up
    · rcases List.mem_cons.mp old with up | old
      · exact .inl up
      · exact .inr (.inl old)
    · exact .inr (.inr ⟨List.mem_cons_of_mem p inside, kept⟩)
  | case5 p rest _ _ head above _ ih =>
    intro member
    obtain up | old | ⟨inside, kept⟩ := ih member
    · exact .inl up
    · exact .inr (.inl (List.mem_cons_of_mem head old))
    · exact .inr (.inr ⟨List.mem_cons_of_mem p inside, kept⟩)
  | case6 done p rest here _ ih =>
    intro member
    obtain up | old | ⟨inside, kept⟩ := ih member
    · exact .inl up
    · rcases List.mem_cons.mp old with rfl | old
      · exact .inr (.inr ⟨List.mem_cons_self .., here⟩)
      · exact .inr (.inl old)
    · exact .inr (.inr ⟨List.mem_cons_of_mem p inside, kept⟩)

/-- The parts of a cleaned path say something, and but for `..` they are parts of the path. -/
theorem mem_cleaned {p s : String} (member : s ∈ cleaned p) :
    ¬ (s == "" || s == ".") = true ∧ (s = ".." ∨ s ∈ parts p) := by
  obtain rfl | old | ⟨inside, kept⟩ := mem_cleanParts member
  · exact ⟨by decide, .inl rfl⟩
  · cases old
  · exact ⟨kept, .inr inside⟩

theorem noSlash_cleaned {p s : String} (member : s ∈ cleaned p) : '/' ∉ s.toList := by
  obtain rfl | inside := (mem_cleaned member).2
  · decide
  · exact noSlash_of_mem_parts inside

theorem parts_cleaned {p : String} (some : cleaned p ≠ []) : parts ("/".intercalate (cleaned p)) = cleaned p :=
  parts_intercalate (fun _ => noSlash_cleaned) some

theorem cleanParts_plain {rooted : Bool} {n : String} (plain : Plain n) (ps done : List String) :
    cleanParts rooted done (ps ++ [n]) = cleanParts rooted done ps ++ [n] := by
  obtain ⟨notEmpty, notDot, notUp, _⟩ := plain
  fun_induction cleanParts rooted done ps with
  | case1 done => simp [cleanParts, notEmpty, notDot, notUp]
  | case2 done p rest skipped ih =>
    rw [List.cons_append, cleanParts.eq_def]
    simp only [skipped]
    exact ih
  | case3 p rest kept up ih =>
    rw [List.cons_append, cleanParts, if_neg kept, if_pos up]
    exact ih
  | case4 p rest kept up tail ih =>
    rw [List.cons_append, cleanParts.eq_def]
    simp only [kept, up]
    exact ih
  | case5 p rest kept up head above other ih =>
    rw [List.cons_append, cleanParts.eq_def]
    simp only [kept, up]
    exact ih
  | case6 done p rest kept notUp' ih =>
    rw [List.cons_append, cleanParts.eq_def]
    simp only [kept, notUp']
    exact ih

theorem EndsIn.clean {p n : String} (ends : EndsIn p n) : EndsIn (clean p) n := by
  obtain ⟨plain, above, split⟩ := ends
  have cleanedEq : cleaned p = cleanParts (isAbs p) [] above ++ [n] := by
    rw [cleaned, split, cleanParts_plain plain]
  have body : parts ("/".intercalate (cleaned p)) = cleaned p :=
    parts_cleaned (by simp [cleanedEq])
  refine ⟨plain, ?_⟩
  unfold Path.clean
  simp only
  split
  · refine ⟨"" :: cleanParts (isAbs p) [] above, ?_⟩
    have rooted : parts ("" ++ "/" ++ "/".intercalate (cleaned p)) = parts "" ++ cleaned p := by
      rw [parts_slash, body]
    have empty : parts "" = [""] := by decide
    simpa [empty, cleanedEq] using rooted
  · split
    · next nothing =>
      have same : "/".intercalate (cleaned p) = "" := by simpa using nothing
      rw [same] at body
      have empty : parts "" = [""] := by decide
      rw [empty, cleanedEq] at body
      have last := List.append_inj' (show [] ++ [""] = _ from body) rfl
      exact absurd (by simpa using last.2.symm) plain.1
    · exact ⟨_, by rw [body, cleanedEq]⟩

/-- The last part of a joined path is that of its last piece. -/
theorem EndsIn.join {n m : String} (ends : EndsIn n m) (ps : List String) : EndsIn (join (ps ++ [n])) m := by
  obtain ⟨plain, above, split⟩ := ends
  have notEmpty : n.isEmpty = false := by
    cases empty : n.isEmpty with
    | false => rfl
    | true =>
      have same : n = "" := by simpa using empty
      rw [same, show parts "" = [""] from by decide] at split
      have last := List.append_inj' (show [] ++ [""] = _ from split) rfl
      exact absurd (by simpa using last.2.symm) plain.1
  have filtered : (ps ++ [n]).filter (!·.isEmpty) = ps.filter (!·.isEmpty) ++ [n] := by
    simp [notEmpty]
  have joined : ∃ above, parts ("/".intercalate (ps.filter (!·.isEmpty) ++ [n])) = above ++ [m] := by
    generalize ps.filter (!·.isEmpty) = qs
    cases qs with
    | nil => exact ⟨above, by simpa using split⟩
    | cons q qs =>
      refine ⟨parts ("/".intercalate (q :: qs)) ++ above, ?_⟩
      rw [String.intercalate_append_of_ne_nil (by simp) (by simp), String.intercalate_singleton, parts_slash,
        split, List.append_assoc]
  unfold Path.join
  rw [filtered]
  split
  · next nothing => simp at nothing
  · exact EndsIn.clean ⟨plain, joined⟩

end Path

namespace Disk

/-! ## One change -/

private theorem lookup_update_same {loc : Location} {e : Entry} : ∀ {es : List (Location × Entry)},
    (es.lookup loc).isSome → (es.map fun x => if x.1 == loc then (loc, e) else x).lookup loc = some e
  | [], found => by simp at found
  | (k, x) :: es, found => by
    by_cases here : k = loc
    · subst here
      simp
    · have other : (loc == k) = false := beq_eq_false_iff_ne.mpr (Ne.symm here)
      rw [List.lookup_cons, other] at found
      simpa [List.lookup_cons, other, here] using lookup_update_same found

private theorem lookup_update_other {loc l : Location} {e : Entry} (apart : l ≠ loc) :
    ∀ (es : List (Location × Entry)), (es.map fun x => if x.1 == loc then (loc, e) else x).lookup l = es.lookup l
  | [] => rfl
  | (k, x) :: es => by
    have ih := lookup_update_other (e := e) apart es
    by_cases here : k = loc
    · subst here
      have other : (l == k) = false := beq_eq_false_iff_ne.mpr apart
      simpa [List.lookup_cons, other] using ih
    · rw [List.map_cons, if_neg (by simpa using here), List.lookup_cons, List.lookup_cons, ih]

theorem lookup_put {d : Disk} {loc : Location} (below : loc ≠ []) (e : Entry) (l : Location) :
    Disk.entry? (d.put loc e) l = if l = loc then some e else d.entry? l := by
  unfold put entry?
  by_cases same : l = loc
  · subst same
    simp only [List.isEmpty_iff, below, if_false, if_true]
    split
    · next found => exact lookup_update_same found
    · next fresh =>
      have none : d.entries.lookup l = none := Option.not_isSome_iff_eq_none.mp fresh
      simp [List.lookup_append, none]
  · simp only [same, if_false]
    split
    · rfl
    · split
      · exact lookup_update_other same d.entries
      · simp [List.lookup_append, List.lookup_cons, beq_eq_false_iff_ne.mpr same]

@[simp] theorem put_cwd (d : Disk) (loc : Location) (e : Entry) : (d.put loc e).cwd = d.cwd := by
  unfold put
  split <;> rfl

/-! ## Following paths -/

/-- Every directory stays one. -/
def KeepsDirs (d d' : Disk) : Prop :=
  d'.cwd = d.cwd ∧ ∀ l, d.entry? l = some .dir → d'.entry? l = some .dir

theorem enter_dir {d : Disk} {loc loc' : Location} {part : String} (entered : d.enter loc part = .ok loc') :
    d.entry? loc = some .dir := by
  unfold enter at entered
  split at entered
  · cases entered
  · cases entered
  · assumption

theorem KeepsDirs.enter {d d' : Disk} (keeps : KeepsDirs d d') {loc loc' : Location} {part : String}
    (entered : d.enter loc part = .ok loc') : d'.enter loc part = .ok loc' := by
  have isDir := enter_dir entered
  unfold Disk.enter at entered ⊢
  rw [isDir] at entered
  rw [keeps.2 loc isDir]
  exact entered

theorem KeepsDirs.walk {d d' : Disk} (keeps : KeepsDirs d d') : ∀ {ps : List String} {loc loc' : Location},
    ps.foldlM d.enter loc = .ok loc' → ps.foldlM d'.enter loc = .ok loc'
  | [], _, _, walked => walked
  | p :: ps, loc, loc', walked => by
    rw [List.foldlM_cons] at walked ⊢
    cases entered : d.enter loc p with
    | error c => simp [entered, bind, Except.bind] at walked
    | ok next =>
      rw [keeps.enter entered]
      rw [entered] at walked
      exact @walk _ _ keeps ps next loc' walked

theorem follow_ok_iff {d : Disk} {path : String} {loc : Location} :
    d.follow path = .ok loc ↔ path.isEmpty = false ∧ '\x00' ∉ path.toList ∧ path.utf8ByteSize ≤ longestPath ∧
      (Path.parts path).foldlM d.enter (if Path.isAbs path then [] else d.cwd) = .ok loc := by
  unfold follow
  by_cases empty : path.isEmpty = true
  · simp [empty]
  · by_cases zero : '\x00' ∈ path.toList
    · simp [empty, zero]
    · by_cases long : path.utf8ByteSize > longestPath
      · simp [empty, zero, long, Nat.not_le.mpr long]
      · simp [empty, zero, long, Nat.le_of_not_lt long]

theorem KeepsDirs.follow {d d' : Disk} (keeps : KeepsDirs d d') {path : String} {loc : Location}
    (followed : d.follow path = .ok loc) : d'.follow path = .ok loc := by
  rw [follow_ok_iff] at followed ⊢
  refine ⟨followed.1, followed.2.1, followed.2.2.1, ?_⟩
  rw [keeps.1]
  exact keeps.walk followed.2.2.2

/-- A path that ends in a name leads to a place of this name. -/
theorem follow_endsIn {d : Disk} {path n : String} {loc : Location} (ends : Path.EndsIn path n)
    (followed : d.follow path = .ok loc) : ∃ up, loc = up ++ [n] := by
  obtain ⟨⟨notEmpty, notDot, notUp, _⟩, above, split⟩ := ends
  have walked := (follow_ok_iff.1 followed).2.2.2
  rw [split, List.foldlM_append] at walked
  cases reached : above.foldlM d.enter (if Path.isAbs path then [] else d.cwd) with
  | error c => simp [reached, bind, Except.bind] at walked
  | ok up =>
    have entered : d.enter up n = .ok loc := by
      rw [reached] at walked
      have last : (d.enter up n >>= pure) = .ok loc := walked
      rwa [bind_pure] at last
    have isDir := enter_dir entered
    unfold enter at entered
    simp only [isDir, notEmpty, notDot, notUp, beq_iff_eq, Bool.or_eq_true, or_self, if_false] at entered
    split at entered
    · cases entered
    · exact ⟨up, by cases entered; rfl⟩

/-! ## Reading and writing -/

theorem read_ok_iff {d : Disk} {path : String} {content : Bytes} :
    d.read path = .ok content ↔ ∃ loc runnable, d.follow path = .ok loc ∧ d.entry? loc = some (.file content runnable) := by
  unfold read find
  cases followed : d.follow path with
  | error c => simp [bind, Except.bind]
  | ok loc =>
    cases there : d.entry? loc with
    | none => simp [bind, Except.bind, there]
    | some e => cases e with
      | dir => simp [bind, Except.bind, there]
      | file content' runnable =>
        simp only [bind, Except.bind, there, Except.ok.injEq]
        refine ⟨?_, ?_⟩
        · rintro rfl
          exact ⟨loc, runnable, rfl, by rw [there]⟩
        · rintro ⟨_, _, rfl, here⟩
          rw [there] at here
          cases here
          rfl

/-- Everything that stands somewhere stays as it is. -/
def Keeps (d d' : Disk) : Prop := d'.cwd = d.cwd ∧ ∀ l e, d.entry? l = some e → d'.entry? l = some e

theorem Keeps.refl (d : Disk) : Keeps d d := ⟨rfl, fun _ _ there => there⟩

theorem Keeps.trans {d d' d'' : Disk} (first : Keeps d d') (second : Keeps d' d'') : Keeps d d'' :=
  ⟨second.1.trans first.1, fun l e there => second.2 l e (first.2 l e there)⟩

theorem Keeps.read {d d' : Disk} (keeps : Keeps d d') {path : String} {content : Bytes}
    (there : d.read path = .ok content) : d'.read path = .ok content := by
  obtain ⟨loc, runnable, followed, entry⟩ := read_ok_iff.1 there
  have dirs : KeepsDirs d d' := ⟨keeps.1, fun l => keeps.2 l .dir⟩
  exact read_ok_iff.2 ⟨loc, runnable, dirs.follow followed, keeps.2 loc _ entry⟩

/-- Writing changes one place, which was no directory. -/
theorem write_ok {d d' : Disk} {path : String} {content : Bytes} (wrote : d.write path content = .ok d') :
    ∃ loc runnable, d.follow path = .ok loc ∧ d'.entry? loc = some (.file content runnable) ∧
      (∀ l, l ≠ loc → d'.entry? l = d.entry? l) ∧ KeepsDirs d d' := by
  unfold write at wrote
  split at wrote
  · cases wrote
  · next loc followed =>
    split at wrote
    · cases wrote
    · next noSlash =>
      rw [if_neg noSlash] at followed
      have root : d.entry? [] = some .dir := rfl
      have change (runnable : Bool) (notDir : d.entry? loc ≠ some .dir)
          (same : d.put loc (.file content runnable) = d') : ∃ loc runnable, d.follow path = .ok loc ∧
            d'.entry? loc = some (.file content runnable) ∧ (∀ l, l ≠ loc → d'.entry? l = d.entry? l) ∧
              KeepsDirs d d' := by
        have below : loc ≠ [] := fun isRoot => notDir (isRoot ▸ root)
        have entries := lookup_put (d := d) below (.file content runnable)
        refine ⟨loc, runnable, followed, ?_, ?_, ?_, ?_⟩
        · rw [← same, entries, if_pos rfl]
        · intro l apart
          rw [← same, entries, if_neg apart]
        · rw [← same, put_cwd]
        · intro l isDir
          rw [← same, entries, if_neg (by rintro rfl; exact notDir isDir)]
          exact isDir
      split at wrote
      · cases wrote
      · next here => exact change _ (by simp [here]) (by simpa using wrote)
      · next here _ => exact change false (by simp [here]) (by simpa using wrote)
      · cases wrote
      · cases wrote

theorem read_write {d d' : Disk} {path : String} {content : Bytes} (wrote : d.write path content = .ok d') :
    d'.read path = .ok content := by
  obtain ⟨loc, runnable, followed, here, _, keeps⟩ := write_ok wrote
  exact read_ok_iff.2 ⟨loc, runnable, keeps.follow followed, here⟩

/-- Writing leaves the files of other names alone. -/
theorem read_write_other {d d' : Disk} {path other m n : String} {content text : Bytes}
    (first : Path.EndsIn path m) (second : Path.EndsIn other n) (apart : m ≠ n)
    (there : d.read other = .ok text) (wrote : d.write path content = .ok d') : d'.read other = .ok text := by
  obtain ⟨loc, _, followed, _, elsewhere, keeps⟩ := write_ok wrote
  obtain ⟨loc', runnable, followed', entry⟩ := read_ok_iff.1 there
  obtain ⟨up, rfl⟩ := follow_endsIn first followed
  obtain ⟨up', rfl⟩ := follow_endsIn second followed'
  have places : up' ++ [n] ≠ up ++ [m] := by
    intro same
    exact apart (by simpa using (List.append_inj' same rfl).2.symm)
  refine read_ok_iff.2 ⟨_, runnable, keeps.follow followed', ?_⟩
  rw [elsewhere _ places]
  exact entry

/-! ## Making directories -/

theorem put_keeps {d : Disk} {loc : Location} (free : d.entry? loc = none) (e : Entry) : Keeps d (d.put loc e) := by
  have below : loc ≠ [] := by
    rintro rfl
    cases free
  refine ⟨put_cwd d loc e, ?_⟩
  intro l e' there
  rw [lookup_put below, if_neg]
  · exact there
  · rintro rfl
    rw [free] at there
    cases there

/-- Making a directory puts one where nothing stood. -/
theorem makeDir_ok {d d' : Disk} {path : String} (made : d.makeDir path = .ok d') :
    ∃ loc, d.entry? loc = none ∧ d' = d.put loc .dir := by
  unfold makeDir at made
  split at made
  · split at made
    · cases made
    · next free _ => exact ⟨_, free, by simpa using made.symm⟩
    · cases made
    · cases made
  · split at made <;> cases made
  · split at made
    · split at made
      · next free _ => exact ⟨_, free, by simpa using made.symm⟩
      · cases made
    · cases made
  · cases made

/-- Making the last directory of a path adds it, unless it is there. -/
private theorem makeLast_change {R : Disk → Disk → Prop} (nothing : ∀ d, R d d)
    (one : ∀ d loc, d.entry? loc = none → R d (d.put loc .dir)) {d d' : Disk} {path : String}
    (made : (match d.makeDir path, d.stat path with
      | .ok d, _ => .ok d
      | .error _, .ok .dir => .ok d
      | .error f, _ => .error f) = Except.ok d') : R d d' := by
  split at made
  · next own =>
    cases made
    obtain ⟨loc, free, rfl⟩ := makeDir_ok own
    exact one d loc free
  · cases made
    exact nothing d
  · cases made

/-- What holds of nothing done, of one new directory, and of two such changes in a row holds of making a directory
    with what is missing above it. -/
theorem makeDirsFrom_change {R : Disk → Disk → Prop} (nothing : ∀ d, R d d)
    (one : ∀ d loc, d.entry? loc = none → R d (d.put loc .dir)) (two : ∀ {d d' d''}, R d d' → R d' d'' → R d d'')
    {fuel : Nat} {d d' : Disk} {path : String} (made : d.makeDirsFrom path fuel = .ok d') : R d d' := by
  induction fuel generalizing d d' path with
  | zero =>
    cases made
    exact nothing d
  | succ fuel ih =>
    unfold makeDirsFrom at made
    split at made
    · cases made
      exact nothing d
    · cases made
    · cases parent : parentText? path with
      | none =>
        rw [parent] at made
        exact makeLast_change nothing one made
      | some up =>
        cases above : makeDirsFrom d up fuel with
        | error f => simp [parent, above, bind, Except.bind] at made
        | ok d₁ =>
          simp only [parent, above] at made
          exact two (ih above) (makeLast_change nothing one made)

theorem makeDirs_keeps {d d' : Disk} {path : String} (made : d.makeDirs path = .ok d') : Keeps d d' :=
  makeDirsFrom_change .refl (fun _ _ free => put_keeps free .dir) .trans made

/-! ## No new files -/

/-- Every file was there before, with the same content. -/
def NoNewFiles (d d' : Disk) : Prop :=
  ∀ l content runnable, d'.entry? l = some (.file content runnable) → d.entry? l = some (.file content runnable)

theorem makeDirs_noNewFiles {d d' : Disk} {path : String} (made : d.makeDirs path = .ok d') : NoNewFiles d d' := by
  refine makeDirsFrom_change (fun _ _ _ _ there => there) ?_ ?_ made
  · intro d loc free l content runnable there
    have below : loc ≠ [] := by
      rintro rfl
      cases free
    rw [lookup_put below] at there
    split at there
    · cases there
    · exact there
  · exact fun first second l content runnable there => first l content runnable (second l content runnable there)

private theorem lookup_filter {p : Location → Bool} {l : Location} (kept : p l = true) :
    ∀ es : List (Location × Entry), (es.filter fun x => p x.1).lookup l = es.lookup l
  | [] => rfl
  | (k, e) :: es => by
    have ih := lookup_filter kept es
    by_cases here : l = k
    · subst here
      simp [kept]
    · have apart : (l == k) = false := beq_eq_false_iff_ne.mpr here
      rw [List.filter_cons, List.lookup_cons, apart]
      split
      · rw [List.lookup_cons, apart]
        exact ih
      · exact ih

/-- What stands somewhere after something was taken away stood there before. -/
theorem entry_of_erase {d : Disk} {loc l : Location} {e : Entry} (there : Disk.entry? (d.erase loc) l = some e) :
    l = [] ∨ d.entry? l = some e := by
  by_cases isRoot : l = []
  · exact .inl isRoot
  · have notRoot : l.isEmpty = false := by simpa using isRoot
    unfold entry? at there ⊢
    simp only [notRoot, Bool.false_eq_true, if_false, erase] at there ⊢
    obtain ⟨before, after, split, _⟩ := List.lookup_eq_some_iff.mp there
    have member : (l, e) ∈ d.entries.filter fun x => !(loc.isPrefixOf x.1) := by simp [split]
    have kept := (List.mem_filter.mp member).2
    rw [lookup_filter (p := fun k => !(loc.isPrefixOf k)) kept] at there
    exact .inr there

theorem removeAll_noNewFiles {d d' : Disk} {path : String} (removed : d.removeAll path = .ok d') : NoNewFiles d d' := by
  have same : NoNewFiles d d := fun _ _ _ there => there
  unfold removeAll at removed
  split at removed
  · cases removed
    exact same
  · split at removed
    · cases removed
    · split at removed
      · next loc e found =>
        cases removed
        intro l content runnable there
        obtain rfl | before := entry_of_erase there
        · cases there
        · exact before
      · cases removed
        exact same
      · simp only at removed
        split at removed
        · cases removed
          exact same
        · cases removed
        · cases removed

end Disk
end PineLang
