import Mathlib.Data.List.Nodup
import PineLang.Build.Pipeline
import PineLang.Proofs.CacheEntries

/-!
Which files a build leaves in its directory. The files of a unit, the entry file and the companions
are written one after the other, and each stays as it was written exactly if the unit bears none of
the names that the others have (`files_intact_iff`).
-/
namespace PineLang

namespace BuildM

/-! ## Steps that succeed -/

/-- The outcome of a step and the state it leaves. -/
def after {α : Type} (m : BuildM α) (s : BuildState) : Except BuildError α × BuildState := m.run s

theorem after_bind {α β : Type} (m : BuildM α) (k : α → BuildM β) (s : BuildState) :
    after (m >>= k) s = match after m s with
      | (.ok a, s₁) => after (k a) s₁
      | (.error e, s₁) => (.error e, s₁) := by
  unfold after ExceptT.run
  simp only [bind, ExceptT.bind, ExceptT.mk, ExceptT.bindCont, StateT.bind]
  cases m s with
  | mk outcome s₁ => cases outcome <;> rfl

/-- A step that succeeds with an answer, and the state it leaves. -/
def Ends {α : Type} (m : BuildM α) (s : BuildState) (a : α) (s' : BuildState) : Prop := after m s = (.ok a, s')

theorem ends_bind {α β : Type} {m : BuildM α} {k : α → BuildM β} {s s' : BuildState} {b : β} :
    Ends (m >>= k) s b s' ↔ ∃ a s₁, Ends m s a s₁ ∧ Ends (k a) s₁ b s' := by
  unfold Ends
  rw [after_bind]
  cases after m s with
  | mk outcome s₁ =>
    cases outcome with
    | error e => simp
    | ok a =>
      simp only [Prod.mk.injEq, Except.ok.injEq]
      exact ⟨fun ends => ⟨a, s₁, ⟨rfl, rfl⟩, ends⟩, fun ⟨_, _, ⟨sameAnswer, sameState⟩, ends⟩ =>
        sameAnswer ▸ sameState ▸ ends⟩

theorem ends_pure {α : Type} {a b : α} {s s' : BuildState} :
    Ends (pure a) s b s' ↔ a = b ∧ s = s' := by
  have split : after (pure a) s = (.ok a, s) := rfl
  simp [Ends, split]

theorem ends_get {s t s' : BuildState} : Ends get s t s' ↔ s = t ∧ s = s' := by
  have split : after get s = (.ok s, s) := rfl
  simp [Ends, split]

theorem ends_modify {change : BuildState → BuildState} {u : PUnit} {s s' : BuildState} :
    Ends (modify change) s u s' ↔ change s = s' := by
  have split : after (modify change) s = (.ok ⟨⟩, change s) := rfl
  simp [Ends, split]

theorem not_ends_throw {α : Type} {e : BuildError} {a : α} {s s' : BuildState} : ¬ Ends (throw e) s a s' := by
  have split : after (throw e : BuildM α) s = (.error e, s) := rfl
  simp [Ends, split]

theorem ends_onDisk {fault : DiskFault → BuildError} {f : Disk → Except DiskFault Disk} {s s' : BuildState} :
    Ends (onDisk fault f) s () s' ↔ ∃ d, f s.disk = .ok d ∧ { s with disk := d } = s' := by
  simp only [onDisk, ends_bind, ends_get]
  constructor
  · rintro ⟨t, s₁, ⟨rfl, rfl⟩, ends⟩
    split at ends
    · next d ok => exact ⟨d, ok, ends_modify.mp ends⟩
    · exact absurd ends not_ends_throw
  · rintro ⟨d, ok, rfl⟩
    exact ⟨s, s, ⟨rfl, rfl⟩, by rw [ok]; exact ends_modify.mpr rfl⟩

theorem after_stage {α : Type} (r : BuildRequest) (st : Stage) (body : BuildM α) (s : BuildState) :
    after (stage r st body) s =
      match after body { s with events := s.events ++ [⟨st, .working, r.path, none⟩] } with
      | (.ok a, t) => (.ok a, { t with timed := t.timed ++ [st], events := t.events ++ [⟨st, .done, r.path, none⟩] })
      | (.error e, t) => (.error e, { t with
          timed := t.timed ++ [st], events := t.events ++ [⟨st, .error, r.path, some e⟩] }) := by
  unfold stage after ExceptT.run tell
  simp only [bind, ExceptT.bind, ExceptT.mk, ExceptT.bindCont, StateT.bind, modify, modifyGet, MonadStateOf.modifyGet,
    StateT.modifyGet, monadLift, MonadLift.monadLift, ExceptT.lift, tryCatch, tryCatchThe, MonadExceptOf.tryCatch,
    ExceptT.tryCatch, Functor.map, StateT.map, pure]
  cases body { s with events := s.events ++ [⟨st, .working, r.path, none⟩] } with
  | mk outcome t => cases outcome <;> rfl

/-- A stage does to the disk and to the generated files what its body does. -/
theorem ends_stage {α : Type} {r : BuildRequest} {st : Stage} {body : BuildM α} {s s' : BuildState} {a : α}
    (ends : Ends (stage r st body) s a s') : ∃ s₁ s₂, Ends body s₁ a s₂ ∧
      s₁.disk = s.disk ∧ s₁.generated = s.generated ∧ s'.disk = s₂.disk ∧ s'.generated = s₂.generated := by
  unfold Ends at ends
  rw [after_stage] at ends
  generalize begun : after body { s with events := s.events ++ [⟨st, .working, r.path, none⟩] } = reached at ends
  obtain ⟨outcome, t⟩ := reached
  cases outcome with
  | error e => cases ends
  | ok a' =>
    cases ends
    exact ⟨_, t, begun, rfl, rfl, rfl, rfl⟩

/-! ## Writing files -/

/-- Files written one after the other into the directory of a build. -/
inductive Writes (r : BuildRequest) : List (String × Bytes) → Disk → Disk → Prop
  | none {d : Disk} : Writes r [] d d
  | more {n : String} {t : Bytes} {fs : List (String × Bytes)} {d d₁ d₂ : Disk} :
    d.write (r.pathOf n) t = .ok d₁ → Writes r fs d₁ d₂ → Writes r ((n, t) :: fs) d d₂

/-- Files that leave those of another name alone. -/
theorem Writes.read_other {r : BuildRequest} {fs : List (String × Bytes)} {d d' : Disk} (wrote : Writes r fs d d')
    {path m : String} {text : Bytes} (ends : Path.EndsIn path m)
    (apart : ∀ f ∈ fs, ∃ n, Path.EndsIn f.1 n ∧ n ≠ m) (there : d.read path = .ok text) : d'.read path = .ok text := by
  induction wrote with
  | none => exact there
  | @more n t fs d d₁ d₂ first _ ih =>
    obtain ⟨last, endsLast, other⟩ := apart (n, t) (List.mem_cons_self ..)
    refine ih (fun f member => apart f (List.mem_cons_of_mem _ member)) ?_
    exact Disk.read_write_other (endsLast.join [r.dir]) ends other there first

/-- Files of different names stay as they were written. -/
theorem Writes.read_own {r : BuildRequest} {fs : List (String × Bytes)} {d d' : Disk} (wrote : Writes r fs d d')
    (ends : ∀ f ∈ fs, Path.EndsIn f.1 (Path.last f.1)) (apart : (fs.map fun f => Path.last f.1).Nodup) :
    ∀ f ∈ fs, d'.read (r.pathOf f.1) = .ok f.2 := by
  induction wrote with
  | none => simp
  | @more n t fs d d₁ d₂ first rest ih =>
    rw [List.map_cons, List.nodup_cons] at apart
    intro f member
    rcases List.mem_cons.mp member with rfl | inside
    · have own := (ends (n, t) (List.mem_cons_self ..)).join [r.dir]
      refine rest.read_other own (fun f inside => ?_) (Disk.read_write first)
      refine ⟨Path.last f.1, ends f (List.mem_cons_of_mem _ inside), ?_⟩
      intro same
      exact apart.1 (List.mem_map.mpr ⟨f, inside, same⟩)
    · exact ih (fun f inside => ends f (List.mem_cons_of_mem _ inside)) apart.2 f inside

theorem ends_writeFile {r : BuildRequest} {fault : DiskFault → BuildError} {n : String} {t : Bytes}
    {s s' : BuildState} (ends : Ends (writeFile r fault n t) s () s') :
    s.disk.write (r.pathOf n) t = .ok s'.disk ∧ s'.generated = s.generated ++ [n] := by
  simp only [writeFile, ends_bind, ends_modify] at ends
  obtain ⟨_, s₁, wrote, rfl⟩ := ends
  obtain ⟨d, ok, rfl⟩ := ends_onDisk.mp wrote
  exact ⟨ok, rfl⟩

theorem ends_writeOutput {r : BuildRequest} {g : Generated} {s s' : BuildState}
    (ends : Ends (writeOutput r g) s () s') :
    Writes r g.files s.disk s'.disk ∧ s'.generated = s.generated ++ g.files.map (·.1) := by
  unfold writeOutput at ends
  generalize g.files = fs at ends ⊢
  induction fs generalizing s with
  | nil =>
    obtain ⟨_, rfl⟩ := ends_pure.mp ends
    exact ⟨.none, by simp⟩
  | cons f fs ih =>
    rw [List.forM] at ends
    obtain ⟨_, s₁, first, rest⟩ := ends_bind.mp ends
    obtain ⟨wrote, named⟩ := ends_writeFile first
    obtain ⟨writes, names⟩ := ih rest
    exact ⟨.more wrote writes, by simp [names, named]⟩

theorem ends_writeCompanions {r : BuildRequest} {s s' : BuildState} (ends : Ends (writeCompanions r) s () s') :
    ∃ d, Disk.Keeps s.disk d ∧ Writes r C.companions d s'.disk ∧
      s'.generated = s.generated ++ C.companions.map (·.1) := by
  simp only [writeCompanions, ends_bind, ends_modify] at ends
  obtain ⟨_, s₁, made, _, s₂, wrote, rfl⟩ := ends
  obtain ⟨d, makes, rfl⟩ := ends_onDisk.mp made
  refine ⟨d, Disk.makeDirs_keeps makes, ?_⟩
  have copied : ∀ (fs : List (String × Bytes)) {t t' : BuildState},
      Ends (fs.forM fun f => onDisk .companion fun d => d.write (r.pathOf f.1) f.2) t () t' →
        Writes r fs t.disk t'.disk ∧ t'.generated = t.generated := by
    intro fs
    induction fs with
    | nil =>
      intro t t' ends
      obtain ⟨_, rfl⟩ := ends_pure.mp ends
      exact ⟨.none, rfl⟩
    | cons f fs ih =>
      intro t t' ends
      rw [List.forM] at ends
      obtain ⟨_, t₁, first, rest⟩ := ends_bind.mp ends
      obtain ⟨d, wrote, rfl⟩ := ends_onDisk.mp first
      obtain ⟨writes, names⟩ := ih rest
      exact ⟨.more wrote writes, names⟩
  obtain ⟨writes, names⟩ := copied C.companions wrote
  exact ⟨writes, by rw [names]⟩

end BuildM

/-! ## Compiling -/

theorem File.lower_name {f : File} {name : String} {u : C.CUnit} (lowered : f.lower name = .ok u) : u.name = name := by
  unfold File.lower at lowered
  cases laid : Lower.layouts [] f.items with
  | error e => simp [laid, bind, Except.bind] at lowered
  | ok ls =>
    cases declared : f.items.mapM (Lower.item ls) with
    | error e => simp [laid, declared, bind, Except.bind] at lowered
    | ok decls =>
      simp only [laid, declared, bind, Except.bind, pure, Except.pure, Except.ok.injEq] at lowered
      rw [← lowered]

theorem SourceFile.compile_ok {f : SourceFile} {path : String} {o : CompileOptions} {g : Generated}
    (accepted : (f.compile path o).outcome = .ok g) : ∃ u, u.name = unitName path ∧ g = emit u o.isProgram := by
  unfold SourceFile.compile at accepted
  simp only at accepted
  split at accepted
  · cases accepted
  · split at accepted
    · cases accepted
    · split at accepted
      · cases accepted
      · split at accepted
        · cases accepted
        · next u lowered =>
          cases accepted
          exact ⟨u, File.lower_name lowered, rfl⟩

/-! ## Names -/

theorem append_ne {v w e e' : String} (long : e.length = e'.length) (apart : v ≠ w ∨ e ≠ e') : v ++ e ≠ w ++ e' := by
  intro same
  have lists : v.toList ++ e.toList = w.toList ++ e'.toList := by
    rw [← String.toList_append, same, String.toList_append]
  obtain ⟨left, right⟩ := List.append_inj' lists (by rw [String.length_toList, String.length_toList, long])
  exact apart.elim (absurd (String.toList_inj.mp left)) (absurd (String.toList_inj.mp right))

/-- The names that files of every build have. -/
def takenUnits : List String := ["main", "pine_gc", "pine_io"]

theorem companions_names : C.companions.map (·.1) = ["pine_gc.c", "pine_gc.h", "pine_io.c", "pine_io.h"] := by
  simp only [C.companions, List.map_cons, List.map_nil]

/-- The files of a build that do not depend on its unit: the dumped tree, the entry and the companions. -/
def fixedNames : List String := "parsed.txt" :: (C.entryName ++ ".c") :: C.companions.map (·.1)

/-- The files of a build, where its unit has this name. -/
def fileNames (unit : String) : List String :=
  [unit ++ ".h", unit ++ ".c", C.entryName ++ ".c"] ++ C.companions.map (·.1)

theorem unit_ne_fixed {unit : String} (free : unit ∉ takenUnits) {e n : String} (ext : e = ".h" ∨ e = ".c")
    (fixed : n ∈ fixedNames) : unit ++ e ≠ n := by
  have cut : fixedNames = [("parsed.t", "xt"), ("main", ".c"), ("pine_gc", ".c"), ("pine_gc", ".h"), ("pine_io", ".c"),
      ("pine_io", ".h")].map fun x => x.1 ++ x.2 := by
    rw [fixedNames, companions_names]
    decide
  rw [cut, List.mem_map] at fixed
  obtain ⟨x, inside, rfl⟩ := fixed
  have pieces : e.length = x.2.length ∧ (x.1 ∈ takenUnits ∨ e ≠ x.2) := by
    revert x
    rcases ext with rfl | rfl <;> decide
  refine append_ne pieces.1 (pieces.2.imp_left ?_)
  rintro taken rfl
  exact free taken

theorem fileNames_nodup {unit : String} (free : unit ∉ takenUnits) : ("parsed.txt" :: fileNames unit).Nodup := by
  have fixed : fixedNames.Nodup := by
    rw [fixedNames, companions_names]
    decide
  have header : unit ++ ".h" ∉ fixedNames := fun member => unit_ne_fixed free (.inl rfl) member rfl
  have source : unit ++ ".c" ∉ fixedNames := fun member => unit_ne_fixed free (.inr rfl) member rfl
  have apart : unit ++ ".h" ≠ unit ++ ".c" := append_ne (by decide) (.inr (by decide))
  simp only [fixedNames, List.mem_cons, not_or, List.nodup_cons] at fixed header source
  simp only [fileNames, List.cons_append, List.nil_append, List.nodup_cons, List.mem_cons, not_or]
  exact ⟨⟨Ne.symm header.1, Ne.symm source.1, fixed.1⟩, ⟨apart, header.2⟩, source.2, fixed.2⟩

/-- The name under which a unit's file stands in a directory. -/
def leaf (unit : String) : String := if unit = "/" then "" else unit

theorem unitName_cases (path : String) : unitName path = "/" ∨ '/' ∉ (unitName path).toList := by
  have bases : Path.base path = "/" ∨ '/' ∉ (Path.base path).toList := by
    unfold Path.base
    split
    · exact .inr (by decide)
    · simp only
      split
      · exact .inl rfl
      · refine .inr ?_
        rw [String.toList_ofList, List.mem_reverse]
        intro member
        have every := List.all_takeWhile (p := (· != '/')) (l := path.toList.reverse.dropWhile (· == '/'))
        simpa using List.all_eq_true.mp every '/' member
  rcases bases with root | plain
  · left
    unfold unitName Path.stem
    rw [root]
    decide
  · right
    unfold unitName Path.stem
    rw [String.toList_ofList]
    exact fun member => plain (List.mem_of_mem_take member)

theorem endsIn_unitName (path : String) {e : String} (ext : e = ".h" ∨ e = ".c") :
    Path.EndsIn (unitName path ++ e) (leaf (unitName path) ++ e) := by
  rcases unitName_cases path with root | plain
  · rw [root]
    rcases ext with rfl | rfl
    · exact ⟨by decide, [""], by decide⟩
    · exact ⟨by decide, [""], by decide⟩
  · have notRoot : unitName path ≠ "/" := fun root => plain (by rw [root]; decide)
    rw [leaf, if_neg notRoot]
    rcases ext with rfl | rfl
    · exact Path.endsIn_extended plain (by decide) (c := 'h') (by decide) (by decide)
    · exact Path.endsIn_extended plain (by decide) (c := 'c') (by decide) (by decide)

namespace Generated

/-- The texts of a unit, each under the name it is generated for. -/
def texts (g : Generated) : List (String × Bytes) :=
  [(g.unit ++ ".h", g.header), (g.unit ++ ".c", g.source)] ++ g.entry.toList.map fun text => (C.entryName ++ ".c", text)

/-- The entry file replaces the source of a unit of its own name, and nothing else. -/
theorem files_eq_texts {g : Generated} (other : g.unit ≠ C.entryName) : g.files = g.texts := by
  have header : g.unit ++ ".h" ≠ C.entryName ++ ".c" := append_ne (by decide) (.inl other)
  have source : g.unit ++ ".c" ≠ C.entryName ++ ".c" := append_ne (by decide) (.inl other)
  cases none : g.entry with
  | none => simp [files, texts, none]
  | some text => simp [files, texts, none, header.symm, source.symm]

end Generated

/-! ## Generating -/

/-- Every file that is no entry of the cache stays as it is. -/
def Stays (d d' : Disk) : Prop :=
  ∀ path n text, Path.EndsIn path n → n.toList.getLast? ≠ some 'p' → d.read path = .ok text → d'.read path = .ok text

theorem keep_stays (cache : Option Cache.Store) (d : Disk) (f : SourceFile) (g : Generated) (isProgram : Bool) :
    Stays d (Cache.keep cache d f g isProgram) := by
  intro path n text ends other there
  unfold Cache.keep
  split
  · exact there
  · next store =>
    split
    · next d' put =>
      unfold Cache.Store.put at put
      cases made : d.makeDirs store.unitsDir with
      | error e => simp [made, bind, Except.bind] at put
      | ok d₁ =>
        simp only [made, bind, Except.bind] at put
        have there₁ := (Disk.makeDirs_keeps made).read there
        refine Disk.read_write_other (store.pathOf_endsIn _) ends ?_ there₁ put
        rintro rfl
        exact other (by simp [Cache.entryFile, List.getLast?_append])
    · exact there

namespace BuildM

theorem ends_frontend {r : BuildRequest} {f : SourceFile} {s s' : BuildState} (ends : Ends (frontend r f) s () s') :
    ∃ g d₁ d₂ dumped, (f.compile r.path { limit := r.limit, isProgram := true }).outcome = .ok g ∧
      Writes r g.files d₁ d₂ ∧ Stays d₂ s'.disk ∧ (dumped = [] ∨ dumped = ["parsed.txt"]) ∧
      s'.generated = s.generated ++ dumped ++ g.files.map (·.1) := by
  simp only [frontend, ends_bind] at ends
  obtain ⟨tree, s₁, parsed, _, s₂, checked, u, s₃, lowered, emitted⟩ := ends
  obtain ⟨a, a', parsing, disk₀, names₀, disk₁, names₁⟩ := ends_stage parsed
  obtain ⟨b, b', checking, disk₂, names₂, disk₃, names₃⟩ := ends_stage checked
  obtain ⟨c, c', lowering, disk₄, names₄, disk₅, names₅⟩ := ends_stage lowered
  obtain ⟨e, e', emitting, disk₆, names₆, disk₇, names₇⟩ := ends_stage emitted
  obtain ⟨tree?, dumped, isDumped, dumpedNames⟩ : (f.parse r.limit).ok? = some tree ∧
      ∃ dumped, (dumped = [] ∨ dumped = ["parsed.txt"]) ∧ a'.generated = a.generated ++ dumped := by
    simp only [ends_bind, ends_modify] at parsing
    obtain ⟨_, t, rfl, inner⟩ := parsing
    split at inner
    · exact absurd inner not_ends_throw
    · next tree' ok =>
      split at inner
      · simp only [ends_bind, ends_pure] at inner
        obtain ⟨_, t, wrote, rfl, rfl⟩ := inner
        exact ⟨ok, ["parsed.txt"], .inr rfl, (ends_writeFile wrote).2⟩
      · obtain ⟨rfl, rfl⟩ := ends_pure.mp inner
        exact ⟨ok, [], .inl rfl, by simp⟩
  obtain ⟨clean, same⟩ : (tree.check true).error? = none ∧ b'.generated = b.generated := by
    simp only [ends_bind, ends_modify] at checking
    obtain ⟨_, t, rfl, inner⟩ := checking
    split at inner
    · exact absurd inner not_ends_throw
    · next passed =>
      obtain ⟨_, rfl⟩ := ends_pure.mp inner
      exact ⟨passed, rfl⟩
  obtain ⟨unit, same'⟩ : tree.lower (unitName r.path) = .ok u ∧ c'.generated = c.generated := by
    split at lowering
    · next u' ok =>
      obtain ⟨rfl, rfl⟩ := ends_pure.mp lowering
      exact ⟨ok, rfl⟩
    · exact absurd lowering not_ends_throw
  obtain ⟨d₂, writes, stays, names⟩ : ∃ d₂, Writes r (emit u true).files e.disk d₂ ∧ Stays d₂ e'.disk ∧
      e'.generated = e.generated ++ (emit u true).files.map (·.1) := by
    simp only [ends_bind, ends_modify] at emitting
    obtain ⟨_, t, wrote, rfl⟩ := emitting
    obtain ⟨writes, names⟩ := ends_writeOutput wrote
    exact ⟨t.disk, writes, keep_stays r.cache t.disk f _ true, names⟩
  have accepted : (f.compile r.path { limit := r.limit, isProgram := true }).outcome = .ok (emit u true) := by
    have going : (f.parse r.limit).cancelled = false := by
      cases read : PineLang.parse (lexemes f.id f.content) with
      | ok parsed => simp [SourceFile.parse, read]
      | error e => simp [SourceFile.parse, read, Parsed.ok?] at tree?
    simp [SourceFile.compile, going, tree?, clean, unit]
  refine ⟨emit u true, e.disk, d₂, dumped, accepted, writes, disk₇ ▸ stays, isDumped, ?_⟩
  rw [names₇, names, names₆, names₅, same', names₄, names₃, same, names₂, names₁, dumpedNames, names₀]

/-- The store that a build looks into. -/
def lookedInto (r : BuildRequest) : Option Cache.Store := if r.dumpsTree then none else r.cache

theorem ends_generate {r : BuildRequest} {f : SourceFile} {s s' : BuildState} (ends : Ends (generate r f) s () s') :
    ∃ g d₁ d₂ dumped, (f.compileCached r.path { limit := r.limit, isProgram := true } (lookedInto r) s.disk).1.outcome =
        .ok g ∧
      Writes r g.files d₁ d₂ ∧ Stays d₂ s'.disk ∧ (dumped = [] ∨ dumped = ["parsed.txt"]) ∧
      s'.generated = s.generated ++ dumped ++ g.files.map (·.1) := by
  simp only [generate, ends_bind, ends_get] at ends
  obtain ⟨_, _, ⟨rfl, rfl⟩, inner⟩ := ends
  have looked : (if r.dumpsTree then none else Cache.lookup r.cache s.disk f true) =
      Cache.lookup (lookedInto r) s.disk f true := by
    unfold lookedInto
    split <;> rfl
  rw [looked] at inner
  split at inner
  · next g found =>
    simp only [tell, ends_bind, ends_modify] at inner
    obtain ⟨_, _, rfl, _, _, rfl, _, _, rfl, _, _, rfl, emitted⟩ := inner
    obtain ⟨e, e', wrote, disk₀, names₀, disk₁, names₁⟩ := ends_stage emitted
    obtain ⟨writes, names⟩ := ends_writeOutput wrote
    refine ⟨g, e.disk, e'.disk, [], by simp [SourceFile.compileCached, found], writes, ?_, .inl rfl, ?_⟩
    · intro path n text _ _ there
      rw [disk₁]
      exact there
    · rw [names₁, names, names₀]
      simp
  · next missed =>
    obtain ⟨g, d₁, d₂, dumped, accepted, rest⟩ := ends_frontend inner
    refine ⟨g, d₁, d₂, dumped, ?_, rest⟩
    simp [SourceFile.compileCached, missed, accepted]

/-! ## The parts of a build -/

/-- A build up to the first file that it generates. -/
def opened (r : BuildRequest) : BuildM SourceFile := do
  if r.path.isEmpty then throw .noSource
  let (f, library) := (← get).library.loadFile (← get).disk r.path
  modify fun s => { s with library }
  match f with
  | .error e =>
    tell .parse .error r.path (some (.load e))
    throw (.load e)
  | .ok f =>
    modify fun s => { s with bag := some { limit := r.limit } }
    prepare r
    return f

/-- A build from there up to the compiler. -/
def written (r : BuildRequest) (f : SourceFile) : BuildM Unit := do
  generate r f
  stage r .runtime (writeCompanions r)

/-- A build from the compiler on. -/
def linked (r : BuildRequest) : BuildM Unit := do
  stage r .compile (link r)
  if r.run then stage r .run (start r)

theorem build_eq (r : BuildRequest) : build r = (do let f ← opened r; written r f; linked r) := by
  have thrown {α β : Type} (e : BuildError) (k : α → BuildM β) : (throw e : BuildM α) >>= k = throw e := rfl
  unfold build opened written linked
  by_cases empty : r.path.isEmpty = true
  · simp only [empty, if_true, bind_assoc, thrown]
  · simp only [empty, Bool.false_eq_true, if_false, bind_assoc]
    refine congrArg _ (funext fun s => congrArg _ (funext fun t => congrArg _ (funext fun _ => ?_)))
    cases (s.library.loadFile t.disk r.path).1 with
    | error e => simp only [bind_assoc, thrown]
    | ok f => simp only [bind_assoc, pure_bind]

theorem generated_opened {r : BuildRequest} {f : SourceFile} {s s' : BuildState} (ends : Ends (opened r) s f s') :
    s'.generated = s.generated := by
  have cleared {fault : DiskFault → BuildError} {change : Disk → Except DiskFault Disk} {t t' : BuildState}
      (ends : Ends (onDisk fault change) t () t') : t'.generated = t.generated := by
    obtain ⟨d, _, rfl⟩ := ends_onDisk.mp ends
    rfl
  unfold opened at ends
  split at ends
  · obtain ⟨_, _, thrown, _⟩ := ends_bind.mp ends
    exact absurd thrown not_ends_throw
  · simp only [ends_bind, ends_get, ends_modify] at ends
    obtain ⟨_, _, ⟨rfl, rfl⟩, _, _, ⟨rfl, rfl⟩, _, _, rfl, inner⟩ := ends
    split at inner
    · obtain ⟨_, _, _, thrown⟩ := ends_bind.mp inner
      exact absurd thrown not_ends_throw
    · simp only [ends_bind, ends_modify, ends_pure] at inner
      obtain ⟨_, _, rfl, _, t, prepared, _, rfl⟩ := inner
      unfold prepare at prepared
      split at prepared
      · obtain ⟨_, t₁, cleaned, made⟩ := ends_bind.mp prepared
        rw [cleared made, cleared cleaned]
      · rw [cleared prepared]

/-- A step that leaves what a view shows of a build, also where it fails. -/
def Leaves {α β : Type} (view : BuildState → β) (m : BuildM α) : Prop := ∀ s, view (after m s).2 = view s

theorem Leaves.bind {α β γ : Type} {view : BuildState → γ} {m : BuildM α} {k : α → BuildM β} (first : Leaves view m)
    (next : ∀ a, Leaves view (k a)) : Leaves view (m >>= k) := by
  intro s
  have before := first s
  rw [after_bind]
  cases reached : after m s with
  | mk outcome s₁ =>
    rw [reached] at before
    cases outcome with
    | ok a => exact (next a s₁).trans before
    | error e => exact before

/-- A stage leaves what its body leaves, if the view has neither events nor timings. -/
theorem Leaves.stage {α γ : Type} {view : BuildState → γ}
    (blind : ∀ s events timed, view { s with events, timed } = view s) {r : BuildRequest} {st : Stage} {body : BuildM α}
    (inner : Leaves view body) : Leaves view (stage r st body) := by
  intro s
  have before := (inner { s with events := s.events ++ [⟨st, .working, r.path, none⟩] }).trans (blind s _ s.timed)
  rw [after_stage]
  cases reached : after body { s with events := s.events ++ [⟨st, .working, r.path, none⟩] } with
  | mk outcome t =>
    rw [reached] at before
    cases outcome with
    | ok a => exact (blind t _ _).trans before
    | error e => exact (blind t _ _).trans before

/-- A run of the executable changes the disk and what was written to the outside. -/
theorem leaves_start {γ : Type} {view : BuildState → γ}
    (blind : ∀ s disk out err exit, view { s with disk, out, err, exit } = view s) (r : BuildRequest) :
    Leaves view (start r) := by
  refine Leaves.bind (fun _ => rfl) fun t => ?_
  cases r.launch t.disk r.outputPath r.runArgs with
  | ok o => exact fun s => blind s o.disk _ _ _
  | error e => exact fun s => blind s s.disk s.out s.err (-1)

/-- A step that generates no file, also where it fails. -/
def Quiet {α : Type} (m : BuildM α) : Prop := ∀ s, (after m s).2.generated = s.generated

theorem quiet_linked (r : BuildRequest) : Quiet (linked r) := by
  have links : Quiet (link r) := by
    refine Leaves.bind (fun _ => rfl) fun t => ?_
    obtain ⟨probed, failure⟩ := r.toolchain.probe t.disk
    refine Leaves.bind (fun _ => rfl) fun _ => ?_
    cases failure with
    | some m => exact fun _ => rfl
    | none =>
      obtain ⟨compiled, failure⟩ := r.toolchain.compile probed r.call
      refine Leaves.bind (fun _ => rfl) fun _ => ?_
      cases failure with
      | some m => exact fun _ => rfl
      | none => exact fun _ => rfl
  refine (Leaves.stage (fun _ _ _ => rfl) links).bind fun _ => ?_
  split
  · exact Leaves.stage (fun _ _ _ => rfl) (leaves_start (fun _ _ _ _ _ => rfl) r)
  · exact fun _ => rfl

theorem generated_build {r : BuildRequest} {disk : Disk} {f : SourceFile} {s s' : BuildState}
    (isOpen : Ends (opened r) (r.initial disk) f s) (isWritten : Ends (written r f) s () s') :
    (r.build disk).state.generated = s'.generated.mergeSort fun a b => a ≤ b := by
  have run : after (build r) (r.initial disk) = after (linked r) s' := by
    rw [build_eq, after_bind, show after (opened r) (r.initial disk) = (.ok f, s) from isOpen]
    simp only
    rw [after_bind, show after (written r f) s = (.ok (), s') from isWritten]
  have last := quiet_linked r s'
  rw [← run] at last
  change (after (build r) (r.initial disk)).2.generated.mergeSort _ = _
  rw [last]

end BuildM

/-! ## Which files stay -/

/-- A program's header, source and entry are all among its files. -/
def Generated.Retrievable (g : Generated) : Prop := g.entry.isSome ∧ ∀ f ∈ g.texts, g.files.lookup f.1 = some f.2

/-- No file of a build was overwritten by another, none was generated twice, and none is compiled twice. -/
structure Intact (r : BuildRequest) (g : Generated) (disk : Disk) (generated : List String) : Prop where
  isProgram : g.entry.isSome
  texts : ∀ f ∈ g.texts, disk.read (r.pathOf f.1) = .ok f.2
  companions : ∀ f ∈ C.companions, disk.read (r.pathOf f.1) = .ok f.2
  generated : generated.Nodup
  compiled : r.call.files.Nodup

/-- A unit that is no header starts with its include lines. -/
theorem text_of_includes {u : C.CUnit} (notHeader : u.isHeader = false) (first rest : Bytes)
    (lines : utf8 (String.join (u.includes.map C.Include.text)) = first ++ rest) : ∃ more, u.text = first ++ more := by
  unfold C.CUnit.text
  rw [lines, notHeader]
  simp only [Bool.false_eq_true, if_false, utf8_empty, List.nil_append, List.append_assoc]
  exact ⟨_, rfl⟩

/-- The source of a unit and the entry file start with different lines. -/
theorem source_ne_entry {u : C.CUnit} (named : u.name = C.entryName) : u.source.text ≠ (C.entryUnit u.name).text := by
  have source : ∃ rest, u.source.text = utf8 "#include \"main.h\"\n" ++ rest := by
    have includes : u.source.includes = [⟨C.entryName ++ ".h", false⟩] := by rw [C.CUnit.source, named]
    refine text_of_includes rfl _ [] ?_
    rw [includes]
    simp only [utf8_eq]
    decide
  have entry : ∃ rest, (C.entryUnit u.name).text = utf8 "#include \"pine_gc.h\"\n" ++ rest := by
    rw [named]
    exact text_of_includes rfl _ (utf8 "#include <stdint.h>\n#include \"main.h\"\n") (by simp only [utf8_eq]; decide)
  obtain ⟨rest, source⟩ := source
  obtain ⟨rest', entry⟩ := entry
  rw [source, entry]
  intro same
  have first := congrArg (·.take 11) same
  simp only [List.take_append_of_le_length (show 11 ≤ (utf8 "#include \"main.h\"\n").length by simp only [utf8_eq]; decide),
    List.take_append_of_le_length (show 11 ≤ (utf8 "#include \"pine_gc.h\"\n").length by simp only [utf8_eq]; decide)] at first
  simp only [utf8_eq] at first
  revert first
  decide

theorem retrievable_iff {f : SourceFile} {path : String} {o : CompileOptions} {g : Generated} (isProgram : o.isProgram = true)
    (accepted : (f.compile path o).outcome = .ok g) : g.Retrievable ↔ unitName path ≠ C.entryName := by
  obtain ⟨u, named, rfl⟩ := SourceFile.compile_ok accepted
  rw [isProgram, ← named]
  constructor
  · rintro ⟨_, found⟩ own
    have source := found (u.name ++ ".c", u.source.text) (by simp [Generated.texts, emit])
    have entry := found (C.entryName ++ ".c", (C.entryUnit u.name).text) (by simp [Generated.texts, emit])
    rw [own] at source
    exact source_ne_entry own (Option.some.inj (source.symm.trans entry))
  · intro other
    refine ⟨rfl, ?_⟩
    rw [Generated.files_eq_texts (g := emit u true) other]
    have header : u.name ++ ".h" ≠ C.entryName ++ ".c" := append_ne (by decide) (.inl other)
    have source : u.name ++ ".c" ≠ C.entryName ++ ".c" := append_ne (by decide) (.inl other)
    have apart : u.name ++ ".h" ≠ u.name ++ ".c" := append_ne (by decide) (.inr (by decide))
    simp [Generated.texts, emit, List.lookup_cons, beq_eq_false_iff_ne.mpr header.symm,
      beq_eq_false_iff_ne.mpr source.symm, beq_eq_false_iff_ne.mpr apart.symm]

/-- The unit of a compilation, also of one that the cache answers. -/
theorem unit_of_compileCached {f : SourceFile} {path : String} {o : CompileOptions} {cache : Option Cache.Store}
    {disk : Disk} {g : Generated} (isProgram : o.isProgram = true)
    (kept : ∀ c, Cache.lookup cache disk f true = some c → c.unit = unitName path ∧ c.entry.isSome)
    (accepted : (f.compileCached path o cache disk).1.outcome = .ok g) : g.unit = unitName path ∧ g.entry.isSome := by
  unfold SourceFile.compileCached at accepted
  rw [isProgram] at accepted
  split at accepted
  · next found =>
    cases accepted
    exact kept g found
  · have compiled : (f.compile path o).outcome = .ok g := by
      cases outcome : (f.compile path o).outcome with
      | ok g' => simpa [outcome] using accepted
      | error e => simp [outcome] at accepted
    obtain ⟨u, named, rfl⟩ := SourceFile.compile_ok compiled
    rw [isProgram]
    exact ⟨named, rfl⟩

theorem compiled_names : (C.companions.map (·.1)).filter (·.endsWith ".c") = ["pine_gc.c", "pine_io.c"] := by
  rw [companions_names]
  decide +kernel

/-- A unit with a taken name is compiled twice. -/
theorem free_of_compiled {r : BuildRequest} (compiled : r.call.files.Nodup) : unitName r.path ∉ takenUnits := by
  have names := List.Nodup.of_map r.pathOf compiled
  rw [compiled_names] at names
  intro taken
  simp only [takenUnits, List.mem_cons, List.not_mem_nil, or_false] at taken
  rcases taken with same | same | same <;> rw [same] at names <;> revert names <;> decide

theorem endsIn_fixed {n : String} (fixed : n ∈ fixedNames) : Path.EndsIn n n := by
  have plain : ∀ n ∈ fixedNames, Path.Plain n := by
    rw [fixedNames, companions_names]
    decide
  exact ⟨plain n fixed, [], Path.parts_of_noSlash (plain n fixed).2.2.2⟩

/-- The last names of the files of a build. -/
theorem last_fileNames (path : String) : (fileNames (unitName path)).map Path.last = fileNames (leaf (unitName path)) := by
  have fixed : ∀ n ∈ fixedNames, Path.last n = n := fun n member => (endsIn_fixed member).last_eq
  have companions : (C.companions.map (·.1)).map Path.last = C.companions.map (·.1) := by
    refine (List.map_congr_left fun n member => fixed n ?_).trans (List.map_id _)
    exact List.mem_cons_of_mem _ (List.mem_cons_of_mem _ member)
  have entry : Path.last (C.entryName ++ ".c") = C.entryName ++ ".c" := fixed _ (by simp [fixedNames])
  simp only [fileNames, List.map_append, companions, List.map_cons, List.map_nil, entry,
    (endsIn_unitName path (.inl rfl)).last_eq, (endsIn_unitName path (.inr rfl)).last_eq]

theorem endsIn_last {path n : String} (member : n ∈ fileNames (unitName path)) : Path.EndsIn n (Path.last n) := by
  have fixed (inside : n ∈ fixedNames) : Path.EndsIn n (Path.last n) := by
    rw [(endsIn_fixed inside).last_eq]
    exact endsIn_fixed inside
  simp only [fileNames, List.cons_append, List.nil_append, List.mem_cons] at member
  rcases member with rfl | rfl | rest
  · rw [(endsIn_unitName path (.inl rfl)).last_eq]
    exact endsIn_unitName path (.inl rfl)
  · rw [(endsIn_unitName path (.inr rfl)).last_eq]
    exact endsIn_unitName path (.inr rfl)
  · exact fixed (List.mem_cons_of_mem _ (List.mem_cons.mpr rest))

theorem leaf_free {unit : String} (free : unit ∉ takenUnits) : leaf unit ∉ takenUnits := by
  unfold leaf
  split
  · decide
  · exact free

theorem last_fileNames_nodup {path : String} (free : unitName path ∉ takenUnits) :
    ((fileNames (unitName path)).map Path.last).Nodup := by
  rw [last_fileNames]
  exact (List.nodup_cons.mp (fileNames_nodup (leaf_free free))).2


theorem compiled_of_free {r : BuildRequest} (free : unitName r.path ∉ takenUnits) : r.call.files.Nodup := by
  have part : List.Sublist ([unitName r.path ++ ".c", "main.c"] ++ (C.companions.map (·.1)).filter (·.endsWith ".c"))
      (fileNames (unitName r.path)) := by
    rw [compiled_names, fileNames, companions_names]
    exact .cons _ (.cons_cons _ (.cons_cons _ (.cons_cons _ (.cons _ (.cons_cons _ (.cons _ .slnil))))))
  have located {n : String} (member : n ∈ fileNames (unitName r.path)) : Path.last (r.pathOf n) = Path.last n :=
    ((endsIn_last member).join [r.dir]).last_eq
  refine List.Nodup.map_on (fun a first b second same => ?_) (part.nodup ?_)
  · have lasts : Path.last a = Path.last b := by
      rw [← located (part.subset first), same, located (part.subset second)]
    exact List.inj_on_of_nodup_map (last_fileNames_nodup free) (part.subset first) (part.subset second) lasts
  · exact (List.nodup_cons.mp (fileNames_nodup free)).2

theorem fileNames_eq {r : BuildRequest} {g : Generated} (named : g.unit = unitName r.path) (isProgram : g.entry.isSome) :
    (g.texts ++ C.companions).map (·.1) = fileNames (unitName r.path) := by
  obtain ⟨text, entry⟩ := Option.isSome_iff_exists.mp isProgram
  simp [Generated.texts, fileNames, entry, named]

/-- No file of a build is called like an entry of the cache. -/
theorem last_of_fileNames {unit n : String} (member : n ∈ fileNames unit) : n.toList.getLast? ≠ some 'p' := by
  simp only [fileNames, companions_names, List.cons_append, List.nil_append, List.mem_cons, List.not_mem_nil,
    or_false] at member
  rcases member with rfl | rfl | rest
  · simp [List.getLast?_append]
  · simp [List.getLast?_append]
  · rcases rest with rfl | rfl | rfl | rfl | rfl <;> decide

/-- Every generated file and every companion stays as it was written. -/
theorem texts_of_free {r : BuildRequest} {g : Generated} (named : g.unit = unitName r.path) (isProgram : g.entry.isSome)
    (free : unitName r.path ∉ takenUnits) {d₁ d₂ d₃ d₄ d₅ : Disk} (writes : BuildM.Writes r g.files d₁ d₂)
    (stays : Stays d₂ d₃) (keeps : Disk.Keeps d₃ d₄) (copies : BuildM.Writes r C.companions d₄ d₅) :
    (∀ f ∈ g.texts, d₅.read (r.pathOf f.1) = .ok f.2) ∧ ∀ f ∈ C.companions, d₅.read (r.pathOf f.1) = .ok f.2 := by
  have notEntry : g.unit ≠ C.entryName := by
    rintro same
    exact free (by rw [← named, same]; decide)
  rw [Generated.files_eq_texts notEntry] at writes
  have names := fileNames_eq named isProgram
  have ends {f : String × Bytes} (member : f ∈ g.texts ++ C.companions) : Path.EndsIn f.1 (Path.last f.1) := by
    refine @endsIn_last r.path _ ?_
    rw [← names]
    exact List.mem_map_of_mem member
  have apart := last_fileNames_nodup free
  rw [← names, List.map_map, List.map_append] at apart
  have own := writes.read_own (fun f member => ends (List.mem_append_left _ member)) apart.of_append_left
  refine ⟨?_, copies.read_own (fun f member => ends (List.mem_append_right _ member)) apart.of_append_right⟩
  intro f member
  have here := (ends (List.mem_append_left _ member)).join [r.dir]
  refine copies.read_other here ?_ (keeps.read (stays _ _ _ here ?_ (own f member)))
  · intro c copied
    refine ⟨Path.last c.1, ends (List.mem_append_right _ copied), ?_⟩
    intro same
    exact List.disjoint_of_nodup_append apart (List.mem_map_of_mem member) (List.mem_map.mpr ⟨c, copied, same⟩)
  · refine @last_of_fileNames (leaf (unitName r.path)) _ ?_
    rw [← last_fileNames, ← names]
    exact List.mem_map_of_mem (List.mem_map_of_mem (List.mem_append_left _ member))

theorem generated_of_free {r : BuildRequest} {g : Generated} (named : g.unit = unitName r.path)
    (isProgram : g.entry.isSome) (free : unitName r.path ∉ takenUnits) {dumped : List String}
    (isDumped : dumped = [] ∨ dumped = ["parsed.txt"]) :
    (dumped ++ g.files.map (·.1) ++ C.companions.map (·.1)).Nodup := by
  have notEntry : g.unit ≠ C.entryName := by
    rintro same
    exact free (by rw [← named, same]; decide)
  rw [Generated.files_eq_texts notEntry, List.append_assoc, ← List.map_append, fileNames_eq named isProgram]
  have all := fileNames_nodup free
  rcases isDumped with rfl | rfl
  · exact (List.nodup_cons.mp all).2
  · exact all

/-- What a program's compilation generates can be told apart exactly if its unit is not called like the entry
    file, and a build keeps all of it exactly if the unit is not called like a companion either. -/
theorem files_intact_iff (f : SourceFile) :
    (∀ (path : String) (o : CompileOptions) (g : Generated), o.isProgram = true →
      (f.compile path o).outcome = .ok g → (g.Retrievable ↔ unitName path ≠ C.entryName)) ∧
    ∀ (r : BuildRequest) (disk : Disk) (s s' : BuildState),
      BuildM.Ends (BuildM.opened r) (r.initial disk) f s → BuildM.Ends (BuildM.written r f) s () s' →
      (∀ c, Cache.lookup (BuildM.lookedInto r) s.disk f true = some c → c.unit = unitName r.path ∧ c.entry.isSome) →
      ∃ g, (f.compileCached r.path { limit := r.limit, isProgram := true } (BuildM.lookedInto r) s.disk).1.outcome =
          .ok g ∧
        (Intact r g s'.disk (r.build disk).state.generated ↔ unitName r.path ∉ takenUnits) := by
  refine ⟨fun path o g isProgram accepted => retrievable_iff isProgram accepted, ?_⟩
  intro r disk s s' isOpen isWritten kept
  have listed := BuildM.generated_build isOpen isWritten
  have fresh : s.generated = [] := BuildM.generated_opened isOpen
  obtain ⟨_, s₁, generates, copies⟩ := BuildM.ends_bind.mp isWritten
  obtain ⟨g, d₁, d₂, dumped, accepted, writes, stays, isDumped, names⟩ := BuildM.ends_generate generates
  obtain ⟨b, b', copying, disk₀, names₀, disk₁, names₁⟩ := BuildM.ends_stage copies
  obtain ⟨d₄, keeps, wrote, more⟩ := BuildM.ends_writeCompanions copying
  obtain ⟨named, isProgram⟩ := unit_of_compileCached rfl kept accepted
  refine ⟨g, accepted, fun intact => free_of_compiled intact.compiled, fun free => ?_⟩
  rw [← disk₀] at stays
  rw [← disk₁] at wrote
  obtain ⟨texts, companions⟩ := texts_of_free named isProgram free writes stays keeps wrote
  refine ⟨isProgram, texts, companions, ?_, compiled_of_free free⟩
  rw [listed, (List.mergeSort_perm ..).nodup_iff, names₁, more, names₀, names, fresh, List.nil_append]
  exact generated_of_free named isProgram free isDumped

/-- The least program. -/
def leastProgram : Bytes := utf8 "fun main() -> _: _\n"

/-- A disk that holds it under a name. -/
def leastDisk (name : String) : Disk := { entries := [([name], .file leastProgram false)] }

/-- Its build, by a compiler that does nothing. -/
def leastBuild (name : String) : BuildRequest :=
  { path := name, toolchain := ⟨fun d => (d, none), fun d _ => (d, none)⟩, launch := fun disk _ _ => .ok { disk } }

/-- How far its build gets before the compiler. -/
def leastWritten (name : String) : Except BuildError Unit × BuildState :=
  BuildM.after (do let f ← BuildM.opened (leastBuild name); BuildM.written (leastBuild name) f)
    ((leastBuild name).initial (leastDisk name))

theorem files_intact_app : ∃ f s s',
    BuildM.Ends (BuildM.opened (leastBuild "app.pn")) ((leastBuild "app.pn").initial (leastDisk "app.pn")) f s ∧
    BuildM.Ends (BuildM.written (leastBuild "app.pn") f) s () s' ∧
    ∃ g, Intact (leastBuild "app.pn") g s'.disk ((leastBuild "app.pn").build (leastDisk "app.pn")).state.generated := by
  have reached : (leastWritten "app.pn").1 = .ok () := by decide +kernel
  have ends : BuildM.Ends (do let f ← BuildM.opened (leastBuild "app.pn"); BuildM.written (leastBuild "app.pn") f)
      ((leastBuild "app.pn").initial (leastDisk "app.pn")) () (leastWritten "app.pn").2 := Prod.ext reached rfl
  obtain ⟨f, s, isOpen, isWritten⟩ := BuildM.ends_bind.mp ends
  obtain ⟨g, _, intact⟩ := (files_intact_iff f).2 (leastBuild "app.pn") (leastDisk "app.pn") s _ isOpen isWritten
    (fun c found => by cases found)
  exact ⟨f, s, _, isOpen, isWritten, g, intact.mpr (by decide)⟩

/-- The entry file takes the place of the source of a program that is called like it, and is compiled twice. -/
theorem main_overwritten :
    (∃ g, ((SourceFile.ofContent 0 "main.pn" leastProgram {}).compile "main.pn" { isProgram := true }).outcome = .ok g ∧
      g.files.lookup "main.c" ≠ some g.source) ∧
    ¬ (leastBuild "main.pn").call.files.Nodup := by
  refine ⟨?_, by decide +kernel⟩
  have accepts : (((SourceFile.ofContent 0 "main.pn" leastProgram {}).compile "main.pn"
      { isProgram := true }).outcome.toOption.map fun g =>
        (g.unit, g.files.lookup "main.c" == some g.source)) = some ("main", false) := by
    decide +kernel
  cases outcome : ((SourceFile.ofContent 0 "main.pn" leastProgram {}).compile "main.pn" { isProgram := true }).outcome with
  | error e => simp [outcome, Except.toOption] at accepts
  | ok g =>
    refine ⟨g, rfl, ?_⟩
    simp only [outcome, Except.toOption, Option.map_some, Option.some.injEq, Prod.mk.injEq] at accepts
    exact beq_eq_false_iff_ne.mp accepts.2

end PineLang
