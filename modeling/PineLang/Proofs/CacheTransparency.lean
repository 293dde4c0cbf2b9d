import PineLang.Proofs.BareTrees
import PineLang.Proofs.DiagnosticLimit
import PineLang.Proofs.FormatRoundTrip
import PineLang.Proofs.GeneratedFiles

/-!
What the cache of generated files changes. The files generated from a source depend on nothing but its bytes, the name
of its unit and whether it is a program (`Generates.compile`), which is what the key of an entry is made of. So every
entry that can be used holds what the call that finds it would generate, whatever was compiled, cleared or written
before (`Sound`), and the only thing that a hit leaves out is the look at whether the call was cancelled
(`cache_transparent`).
-/
namespace PineLang

/-! ## Sources in other files -/

/-- A source is parsed to the same tree up to spans whichever file it is. -/
theorem parse_elsewhere {file : Nat} {source : Bytes} {cancelled : Bool} {tree : File}
    (parsed : parse (lexemes file source) cancelled = .ok tree) (file' : Nat) :
    ∃ tree', parse (lexemes file' source) = .ok tree' ∧ tree'.bare = tree.bare := by
  have alike : (lexemes file' source).map Lexeme.placeless = (lexemes file source).map Lexeme.placeless :=
    Lexer.lexemesFrom_alike file' file _ _ 0 ⟨0, source⟩ ⟨0, source⟩ rfl (Nat.lt_succ_self _) (Nat.lt_succ_self _)
  exact parse_alike parsed (map_bare?_of_placeless alike)

/-- These files are generated from a source as this unit. -/
def Generates (source : Bytes) (unit : String) (isProgram : Bool) (g : Generated) : Prop :=
  ∃ file cancelled tree u, parse (lexemes file source) cancelled = .ok tree ∧ (tree.check isProgram).found = [] ∧
    tree.lower unit = .ok u ∧ g = emit u isProgram

theorem SourceFile.generates {f : SourceFile} {path : String} {o : CompileOptions} {g : Generated}
    (compiled : (f.compile path o).outcome = .ok g) : Generates f.content (unitName path) o.isProgram g := by
  obtain ⟨limit, isProgram, cancelled⟩ := o
  rw [compile_found] at compiled
  unfold compileFound at compiled
  split at compiled
  · cases compiled
  · next tree parsed =>
    simp only at compiled
    split at compiled
    · cases compiled
    · next passed =>
      have found : (tree.check isProgram).found = [] := (tree.error?_check_eq_none _).mp passed
      split at compiled
      · cases compiled
      · next u lowered =>
        cases compiled
        exact ⟨f.id, cancelled, tree, u, parsed, found, lowered, rfl⟩

/-- A call that is not cancelled generates them without a word. -/
theorem Generates.compile {f : SourceFile} {path : String} {isProgram : Bool} {g : Generated}
    (generates : Generates f.content (unitName path) isProgram g) (limit : Nat) :
    f.compile path { limit, isProgram } = ⟨{ limit }, .ok g⟩ := by
  obtain ⟨file, cancelled, tree, u, parsed, found, lowered, rfl⟩ := generates
  obtain ⟨tree', parsed', bare⟩ := parse_elsewhere parsed f.id
  have found' : (tree'.check isProgram).found = [] := by
    have codes := tree'.check_bare isProgram
    rw [bare, tree.check_bare, found] at codes
    exact List.map_eq_nil_iff.mp codes.symm
  have lowered' : tree'.lower (unitName path) = .ok u := by rw [← tree'.lower_bare, bare, tree.lower_bare, lowered]
  have silent : f.parseFound false = [] := by
    rw [SourceFile.parseFound, parsed', reports_of_parse parsed']
    rfl
  rw [SourceFile.compile_found]
  unfold SourceFile.compileFound
  simp only [parsed', (tree'.error?_check_eq_none _).mpr found', found', lowered', silent, List.append_nil]
  rfl

/-- An entry gives back the files that it was made of. -/
theorem Generates.stored {source : Bytes} {unit : String} {isProgram : Bool} {g : Generated}
    (generates : Generates source unit isProgram g) : (Cache.CachedUnit.ofGenerated g).generated = g ∧ g.unit = unit := by
  obtain ⟨file, cancelled, tree, u, parsed, found, lowered, rfl⟩ := generates
  have name : Text.lossy (utf8 u.name) = u.name := by
    have read := C.string_utf8 u.name
    unfold Text.string? at read
    split at read
    · exact Option.some.inj read
    · cases read
  have written : (C.entryUnit u.name).text.isEmpty = false := by
    simp [C.CUnit.text, C.entryUnit, C.Include.text, utf8_eq]
  refine ⟨?_, File.lower_name lowered⟩
  cases isProgram <;> simp [Cache.CachedUnit.ofGenerated, Cache.CachedUnit.generated, emit, name, written]

/-! ## Histories -/

/-- A compilation that is asked for: the file as it is loaded at that moment, and how to compile it. -/
structure CacheCall where
  id : Nat := 0
  path : String
  content : Bytes
  flags : FileFlags := {}
  options : CompileOptions := {}

namespace CacheCall

/-- The file that is compiled. -/
def file (c : CacheCall) : SourceFile := .ofContent c.id c.path c.content c.flags

/-- What is hashed for the key of the call. -/
def keyText (c : CacheCall) : Bytes := Cache.keyText (sha256 c.content) (unitName c.path) c.options.isProgram

/-- The answer without a cache. -/
def plain (c : CacheCall) : Compiled := c.file.compile c.path c.options

/-- The same call, not cancelled. -/
def resumed (c : CacheCall) : CacheCall := { c with options := { c.options with cancelled := false } }

/-- These files are generated from the source of the call. -/
def Generates (c : CacheCall) (g : Generated) : Prop :=
  PineLang.Generates c.content (unitName c.path) c.options.isProgram g

theorem generates {c : CacheCall} {g : Generated} (compiled : c.plain.outcome = .ok g) : c.Generates g :=
  @SourceFile.generates c.file c.path c.options g compiled

theorem Generates.resumed {c : CacheCall} {g : Generated} (generates : c.Generates g) :
    c.resumed.plain = ⟨{ limit := c.options.limit }, .ok g⟩ :=
  @PineLang.Generates.compile c.file c.path c.options.isProgram g generates c.options.limit

end CacheCall

/-- What happens to a cache: a compilation, all entries dropped, or a file written to the disk. -/
inductive CacheUse where
  | compile (call : CacheCall)
  | clear
  | write (path : String) (content : Bytes)

/-- The answer to a call, and whether the cache had it. -/
structure CacheAnswer where
  call : CacheCall
  result : Compiled
  hit : Bool

namespace CacheUse

/-- The answer to a use, and the disk after it. -/
@[grind =] def run (s : Cache.Store) (d : Disk) : CacheUse → Option CacheAnswer × Disk
  | compile call =>
    let (result, hit, d) := call.file.compileCached call.path call.options (some s) d
    (some ⟨call, result, hit⟩, d)
  | clear => (none, (s.clear d).toOption.getD d)
  | write path content => (none, (d.write path content).toOption.getD d)

/-- The compilation, if it is one. -/
def call? : CacheUse → Option CacheCall
  | compile call => some call
  | _ => none

/-- A file that is written is no entry that can be used: it bears the name of none, or it cannot be decoded, or is of
    another layout. -/
def Harmless : CacheUse → Prop
  | write path content => (∃ n, Path.EndsIn path n ∧ ∀ key, n ≠ Cache.entryFile key) ∨
      ∀ c, Cache.CachedUnit.decode? content = some c → c.layout ≠ Cache.layout
  | _ => True

end CacheUse

/-- The answers of a cache to what happens to it, one after the other. -/
def cacheAnswers (s : Cache.Store) (d : Disk) : List CacheUse → List CacheAnswer
  | [] => []
  | use :: uses => (use.run s d).1.toList ++ cacheAnswers s (use.run s d).2 uses

namespace Cache

/-- Every entry that can be used holds what was generated from the source that its key was made for. -/
def Sound (calls : List CacheCall) (d : Disk) : Prop :=
  ∀ loc content runnable key c, d.entry? loc = some (.file content runnable) → loc.getLast? = some (entryFile key) →
    CachedUnit.decode? content = some c → c.layout = layout →
      ∃ call ∈ calls, key = sha256 call.keyText ∧ call.Generates c.generated

/-- No two sources that are compiled have the same hash, and no two of their keys are the same by chance. -/
def CollisionFree (calls : List CacheCall) : Prop :=
  ∀ c ∈ calls, ∀ c' ∈ calls, (sha256 c.content = sha256 c'.content → c.content = c'.content) ∧
    (sha256 c.keyText = sha256 c'.keyText → c.keyText = c'.keyText)

section Steps

variable {calls : List CacheCall} {s : Store} {d d' : Disk}

theorem Sound.of_noNewFiles (sound : Sound calls d) (files : d.NoNewFiles d') : Sound calls d' :=
  fun loc content runnable key c there => sound loc content runnable key c (files loc content runnable there)

/-- Writing one file keeps entries sound if it is none that can be used, or is sound itself. -/
theorem Sound.write (sound : Sound calls d) {path : String} {content : Bytes} (wrote : d.write path content = .ok d')
    (right : ∀ loc key c, d.follow path = .ok loc → loc.getLast? = some (entryFile key) →
      CachedUnit.decode? content = some c → c.layout = layout →
        ∃ call ∈ calls, key = sha256 call.keyText ∧ call.Generates c.generated) : Sound calls d' := by
  obtain ⟨place, _, followed, here, elsewhere, -⟩ := Disk.write_ok wrote
  intro loc content' runnable key c there named decoded current
  by_cases same : loc = place
  · subst same
    rw [here] at there
    cases there
    exact right loc key c followed named decoded current
  · rw [elsewhere loc same] at there
    exact sound loc content' runnable key c there named decoded current

theorem Sound.keep (sound : Sound calls d) {call : CacheCall} (asked : call ∈ calls) {g : Generated}
    (generates : call.Generates g)
    (inverts : CachedUnit.decode? (CachedUnit.ofGenerated g).encode = some (.ofGenerated g)) :
    Sound calls (keep (some s) d call.file g call.options.isProgram) := by
  obtain ⟨restored, named⟩ := generates.stored
  unfold Cache.keep
  simp only
  split
  · next d' put =>
    unfold Store.put at put
    cases made : d.makeDirs s.unitsDir with
    | error e => simp [made, bind, Except.bind] at put
    | ok d₁ =>
      simp only [made, bind, Except.bind] at put
      refine (sound.of_noNewFiles (Disk.makeDirs_noNewFiles made)).write put ?_
      intro loc key c followed own decoded _
      obtain ⟨up, rfl⟩ := Disk.follow_endsIn (s.pathOf_endsIn _) followed
      rw [List.getLast?_concat] at own
      have sameKey := entryFile_injective (Option.some.inj own)
      cases Option.some.inj (inverts.symm.trans decoded)
      refine ⟨call, asked, ?_, restored.symm ▸ generates⟩
      rw [← sameKey, named]
      rfl
  · exact sound

/-- What a hit gives is generated from the source of the call. -/
theorem Sound.hit (sound : Sound calls d) (apart : CollisionFree calls) {call : CacheCall} (asked : call ∈ calls)
    {g : Generated} (found : lookup (some s) d call.file call.options.isProgram = some g) : call.Generates g := by
  rw [lookup, Option.bind_some] at found
  split at found
  · next c got =>
    cases found
    unfold Store.get at got
    split at got
    · cases got
    · cases got
    · next bs there =>
      split at got
      · cases got
      · next c' decoded =>
        obtain ⟨loc, runnable, followed, entry⟩ := Disk.read_ok_iff.mp there
        obtain ⟨up, rfl⟩ := Disk.follow_endsIn (s.pathOf_endsIn _) followed
        split at got
        · next current =>
          cases got
          obtain ⟨maker, made, sameKey, generates⟩ :=
            sound _ bs runnable _ c entry List.getLast?_concat decoded current
          have texts : call.keyText = maker.keyText := (apart call asked maker made).2 sameKey
          obtain ⟨hashes, units, programs⟩ := keyText_injective texts
          rw [CacheCall.Generates, (apart call asked maker made).1 hashes, units, programs]
          exact generates
        · cases got
  · cases found

end Steps

/-- No file on the disk bears the name of an entry. -/
def NoEntries (d : Disk) : Prop :=
  ∀ loc content runnable key, d.entry? loc = some (.file content runnable) → loc.getLast? ≠ some (entryFile key)

theorem NoEntries.sound {d : Disk} (empty : NoEntries d) (calls : List CacheCall) : Sound calls d :=
  fun loc content runnable key _ there named _ _ => absurd named (empty loc content runnable key there)

/-- A disk without entries has none for any source. -/
theorem NoEntries.lookup_none {d : Disk} (empty : NoEntries d) (s : Store) (f : SourceFile) (isProgram : Bool) :
    lookup (some s) d f isProgram = none := by
  rw [lookup, Option.bind_some]
  unfold Store.get
  cases there : d.read (s.pathOf (key f.hash (unitName f.path) isProgram)) with
  | ok content =>
    obtain ⟨loc, runnable, followed, entry⟩ := Disk.read_ok_iff.mp there
    obtain ⟨up, rfl⟩ := Disk.follow_endsIn (s.pathOf_endsIn _) followed
    exact absurd List.getLast?_concat (empty _ content runnable _ entry)
  | error fault =>
    obtain ⟨op, path, cause⟩ := fault
    cases cause <;> rfl

theorem Store.read_put {s : Store} {d d' : Disk} {k : Bytes} {c : CachedUnit} (put : s.put d k c = .ok d') :
    d'.read (s.pathOf k) = .ok { c with layout := Cache.layout }.encode := by
  unfold Store.put at put
  cases made : d.makeDirs s.unitsDir with
  | error e => simp [made, bind, Except.bind] at put
  | ok d₁ =>
    simp only [made, bind, Except.bind] at put
    exact Disk.read_write put

/-- The entry that stands at the place of its key is found. -/
theorem lookup_read {s : Store} {d : Disk} {f : SourceFile} {isProgram : Bool} {c : CachedUnit}
    (there : d.read (s.pathOf (key f.hash (unitName f.path) isProgram)) = .ok c.encode)
    (inverts : CachedUnit.decode? c.encode = some c) (current : c.layout = layout) :
    lookup (some s) d f isProgram = some c.generated := by
  rw [lookup, Option.bind_some]
  simp only [Store.get, there, inverts, current, if_true]

/-- Reading an entry inverts writing it, for all that these calls generate. -/
def Inverts (calls : List CacheCall) : Prop :=
  ∀ call ∈ calls, ∀ g, call.plain.outcome = .ok g →
    CachedUnit.decode? (CachedUnit.ofGenerated g).encode = some (.ofGenerated g)

end Cache

namespace CacheAnswer

/-- The answer is the one without a cache, but that a hit does not ask whether the call was cancelled; and a hit is a
    program that compiles. -/
structure Transparent (a : CacheAnswer) : Prop where
  same : a.call.options.cancelled = false ∨ a.hit = false → a.result = a.call.plain
  hit : a.hit = true → a.result = a.call.resumed.plain ∧ ∃ g, a.result.outcome = .ok g

end CacheAnswer

/-- One use leaves every entry sound, and is answered as without a cache. -/
theorem CacheUse.run_sound {s : Cache.Store} {calls : List CacheCall} {d : Disk} (apart : Cache.CollisionFree calls)
    (inverts : Cache.Inverts calls) (sound : Cache.Sound calls d) {use : CacheUse} (harmless : use.Harmless)
    (asked : ∀ call, use.call? = some call → call ∈ calls) :
    Cache.Sound calls (use.run s d).2 ∧ ∀ a ∈ (use.run s d).1, a.Transparent := by
  cases use with
  | compile call =>
    have member := asked call rfl
    simp only [CacheUse.run, SourceFile.compileCached]
    split
    · next g found =>
      have result := (sound.hit apart member found).resumed
      refine ⟨sound, fun a here => ?_⟩
      cases here
      refine ⟨fun either => ?_, fun _ => ⟨result.symm, g, rfl⟩⟩
      have going : call.options.cancelled = false := either.resolve_right (by simp)
      have same : call.resumed = call := by rw [CacheCall.resumed, ← going]
      rw [← same, result, same]
    · split
      · next g compiled =>
        refine ⟨sound.keep member (CacheCall.generates compiled) (inverts call member g compiled), fun a here => ?_⟩
        cases here
        exact ⟨fun _ => rfl, fun cancelled => absurd cancelled Bool.false_ne_true⟩
      · refine ⟨sound, fun a here => ?_⟩
        cases here
        exact ⟨fun _ => rfl, fun cancelled => absurd cancelled Bool.false_ne_true⟩
  | clear =>
    refine ⟨?_, fun a none => absurd none (Option.not_mem_none a)⟩
    rw [CacheUse.run]
    cases cleared : s.clear d with
    | error e => exact sound
    | ok d' => exact sound.of_noNewFiles (Disk.removeAll_noNewFiles cleared)
  | write path content =>
    refine ⟨?_, fun a none => absurd none (Option.not_mem_none a)⟩
    rw [CacheUse.run]
    cases wrote : d.write path content with
    | error e => exact sound
    | ok d' =>
      refine sound.write wrote fun loc key c followed named decoded current => ?_
      obtain ⟨n, ends, other⟩ | useless := harmless
      · obtain ⟨up, rfl⟩ := Disk.follow_endsIn ends followed
        rw [List.getLast?_concat] at named
        exact absurd (Option.some.inj named) (other key)
      · exact absurd current (useless c decoded)

/-- As long as every entry is sound, a whole history is answered as without a cache. -/
theorem cacheAnswers_sound {s : Cache.Store} {calls : List CacheCall} (apart : Cache.CollisionFree calls)
    (inverts : Cache.Inverts calls) : ∀ {history : List CacheUse} {d : Disk}, Cache.Sound calls d →
      (∀ use ∈ history, use.Harmless) → (∀ use ∈ history, ∀ call, use.call? = some call → call ∈ calls) →
        ∀ a ∈ cacheAnswers s d history, a.Transparent
  | [], _, _, _, _ => List.forall_mem_nil _
  | use :: uses, d, sound, harmless, asked => by
    obtain ⟨next, first⟩ := CacheUse.run_sound (s := s) apart inverts sound (harmless use (List.mem_cons_self ..))
      (asked use (List.mem_cons_self ..))
    have rest := cacheAnswers_sound (s := s) apart inverts next (fun u member => harmless u (List.mem_cons_of_mem use member))
      fun u member => asked u (List.mem_cons_of_mem use member)
    intro a member
    obtain now | later := List.mem_append.mp member
    · exact first a (Option.mem_toList.mp now)
    · exact rest a later

/-- The cache changes no answer, whatever was compiled before, from whatever sources and in whatever order, and
    whether its entries were dropped or damaged in between: every call that is not cancelled, and every call that the
    cache has nothing for, is answered as without a cache. A hit answers as the same call not cancelled, which
    compiles. Taken for granted is that the hashes do not collide and that entries are read as they are written. -/
theorem cache_transparent (s : Cache.Store) (d : Disk) (history : List CacheUse) (empty : Cache.NoEntries d)
    (harmless : ∀ use ∈ history, use.Harmless) (apart : Cache.CollisionFree (history.filterMap CacheUse.call?))
    (inverts : Cache.Inverts (history.filterMap CacheUse.call?)) :
    ∀ a ∈ cacheAnswers s d history, (a.call.options.cancelled = false ∨ a.hit = false → a.result = a.call.plain) ∧
      (a.hit = true → a.result = a.call.resumed.plain ∧ ∃ g, a.result.outcome = .ok g) := by
  intro a member
  obtain ⟨same, hit⟩ := cacheAnswers_sound apart inverts (empty.sound _) harmless
    (fun use asked call is => List.mem_filterMap.mpr ⟨use, asked, is⟩) a member
  exact ⟨same, hit⟩

/-- A program, compiled and written to the disk. -/
def cachedCall : CacheCall where
  path := "app.pn"
  content := utf8 "fun main() -> _: _\n"
  options := { isProgram := true }

/-- The program is compiled three times, the last time in a cancelled call. -/
def cachedUses : List CacheUse :=
  [.compile cachedCall, .write "app.pn" cachedCall.content, .compile cachedCall,
    .compile { cachedCall with options := { isProgram := true, cancelled := true } }]

/-- No entry has the name of the source. -/
theorem app_ne_entry (key : Bytes) : "app.pn" ≠ Cache.entryFile key := by
  intro same
  have last := congrArg (fun n => n.toList.getLast?) same
  simp [Cache.entryFile, List.getLast?_append] at last

theorem cachedUses_inverts : Cache.Inverts (cachedUses.filterMap CacheUse.call?) := by
  have small : ∀ call ∈ cachedUses.filterMap CacheUse.call?, ∀ g ∈ call.plain.outcome.toOption,
      (utf8 g.unit).length < 4294967296 ∧ g.header.length < 4294967296 ∧ g.source.length < 4294967296 ∧
        (g.entry.getD []).length < 4294967296 := by decide +kernel
  intro call member g compiled
  obtain ⟨unit, header, source, entry⟩ := small call member g (by rw [compiled]; rfl)
  exact Cache.CachedUnit.decode_encode (show Cache.layout < 65536 by decide) unit header source entry

theorem empty_noEntries : Cache.NoEntries {} := by
  intro loc content runnable key there
  cases loc with
  | nil => cases there
  | cons => cases there

/-- The place of the entry of the program. -/
def appEntry : Bytes := Cache.key cachedCall.file.hash (unitName cachedCall.path) true

theorem Except.toOption_eq_some {ε α : Type} {x : Except ε α} {a : α} (some : x.toOption = .some a) : x = .ok a := by
  cases x with
  | error e => cases some
  | ok b => exact congrArg _ (Option.some.inj some)

/-- The program compiles, and its entry can be written. Cancelled, it does not compile. -/
theorem cachedCall_put : (∃ g d, cachedCall.plain.outcome = .ok g ∧
      Cache.Store.put ⟨"cache"⟩ {} appEntry (.ofGenerated g) = .ok d) ∧
    (CacheCall.plain { cachedCall with options := { isProgram := true, cancelled := true } }).outcome.toOption.isSome = false := by
  have stored : (cachedCall.plain.outcome.toOption.any fun g =>
        (Cache.Store.put ⟨"cache"⟩ {} appEntry (.ofGenerated g)).toOption.isSome) = true ∧
      (CacheCall.plain { cachedCall with options := { isProgram := true, cancelled := true } }).outcome.toOption.isSome =
        false := by
    decide +kernel
  obtain ⟨g, compiled, put⟩ := (Option.any_eq_true _ _).mp stored.1
  obtain ⟨d, put⟩ := Option.isSome_iff_exists.mp put
  exact ⟨⟨g, d, Except.toOption_eq_some compiled, Except.toOption_eq_some put⟩, stored.2⟩

theorem cachedCall_run {g : Generated} {d : Disk} (compiled : cachedCall.plain.outcome = .ok g)
    (put : Cache.Store.put ⟨"cache"⟩ {} appEntry (.ofGenerated g) = .ok d) :
    (CacheUse.compile cachedCall).run ⟨"cache"⟩ {} = (some ⟨cachedCall, cachedCall.plain, false⟩, d) := by
  have none : Cache.lookup (some ⟨"cache"⟩) {} cachedCall.file cachedCall.options.isProgram = none :=
    empty_noEntries.lookup_none ⟨"cache"⟩ cachedCall.file true
  have kept : Cache.keep (some ⟨"cache"⟩) {} cachedCall.file g cachedCall.options.isProgram = d := by
    have unit : g.unit = unitName cachedCall.path := (CacheCall.generates compiled).stored.2
    have program : cachedCall.options.isProgram = true := rfl
    rw [appEntry] at put
    unfold Cache.keep
    simp only [unit, program, put]
  rw [CacheCall.plain] at compiled
  rw [CacheUse.run, SourceFile.compileCached, none]
  simp only [compiled, kept]
  rfl

theorem appEntry_kept {g : Generated} {d : Disk} (put : Cache.Store.put ⟨"cache"⟩ {} appEntry (.ofGenerated g) = .ok d) :
    ((CacheUse.write "app.pn" cachedCall.content).run ⟨"cache"⟩ d).2.read (Cache.Store.pathOf ⟨"cache"⟩ appEntry) =
      .ok (Cache.CachedUnit.ofGenerated g).encode := by
  have written := Cache.Store.read_put put
  rw [CacheUse.run]
  cases wrote : d.write "app.pn" cachedCall.content with
  | error e => exact written
  | ok d' =>
    have source : Path.EndsIn "app.pn" "app.pn" := ⟨by decide, [], by decide⟩
    exact Disk.read_write_other source (Cache.Store.pathOf_endsIn _ _) (app_ne_entry _) written wrote

/-- A call that finds the entry of the program is answered by it, whether it is cancelled or not. -/
theorem cachedCall_rerun {d : Disk} {g : Generated} (compiled : cachedCall.plain.outcome = .ok g)
    (there : d.read (Cache.Store.pathOf ⟨"cache"⟩ appEntry) = .ok (Cache.CachedUnit.ofGenerated g).encode) (call : CacheCall)
    (file : call.file = cachedCall.file) (program : call.options.isProgram = true) :
    (CacheUse.compile call).run ⟨"cache"⟩ d = (some ⟨call, ⟨{ limit := call.options.limit }, .ok g⟩, true⟩, d) := by
  have found : Cache.lookup (some ⟨"cache"⟩) d cachedCall.file true = some (Cache.CachedUnit.ofGenerated g).generated :=
    Cache.lookup_read there (cachedUses_inverts cachedCall (List.mem_cons_self ..) g compiled) rfl
  rw [(CacheCall.generates compiled).stored.1] at found
  rw [CacheUse.run, SourceFile.compileCached, file, program, found]

/-- The cache answers a cancelled call with the files of the program, where without it the call fails. -/
theorem cancelled_call_hit : (cacheAnswers ⟨"cache"⟩ {} cachedUses).map
    (fun a => (a.hit, a.call.plain.outcome.toOption.isSome, a.result.outcome.toOption.isSome)) =
      [(false, true, true), (true, true, true), (true, false, true)] := by
  obtain ⟨⟨g, d, compiled, put⟩, fails⟩ := cachedCall_put
  have there := appEntry_kept put
  rw [cachedUses, cacheAnswers, cachedCall_run compiled put, cacheAnswers, cacheAnswers]
  dsimp only
  rw [cachedCall_rerun compiled there cachedCall rfl rfl, cacheAnswers]
  dsimp only
  rw [cachedCall_rerun compiled there { cachedCall with options := { isProgram := true, cancelled := true } } rfl rfl]
  simp only [Option.toList, CacheUse.run, cacheAnswers, List.cons_append, List.nil_append, List.map_cons, List.map_nil,
    compiled, fails]
  rfl
theorem cache_transparent_app : Cache.NoEntries {} ∧ (∀ use ∈ cachedUses, use.Harmless) ∧
    Cache.CollisionFree (cachedUses.filterMap CacheUse.call?) ∧ Cache.Inverts (cachedUses.filterMap CacheUse.call?) ∧
    ∀ a ∈ cacheAnswers ⟨"cache"⟩ {} cachedUses, (a.call.options.cancelled = false ∨ a.hit = false → a.result = a.call.plain) ∧
      (a.hit = true → a.result = a.call.resumed.plain ∧ ∃ g, a.result.outcome = .ok g) := by
  have harmless : ∀ use ∈ cachedUses, use.Harmless := by
    have source : Path.EndsIn "app.pn" "app.pn" := ⟨by decide, [], by decide⟩
    have written : (CacheUse.write "app.pn" cachedCall.content).Harmless := .inl ⟨"app.pn", source, app_ne_entry⟩
    simpa [cachedUses, CacheUse.Harmless] using written
  have apart : Cache.CollisionFree (cachedUses.filterMap CacheUse.call?) := by
    have alike : ∀ call ∈ cachedUses.filterMap CacheUse.call?,
        call.content = cachedCall.content ∧ call.keyText = cachedCall.keyText :=
      List.forall_mem_cons.mpr ⟨⟨rfl, rfl⟩, List.forall_mem_cons.mpr ⟨⟨rfl, rfl⟩, List.forall_mem_singleton.mpr ⟨rfl, rfl⟩⟩⟩
    intro c member c' member'
    obtain ⟨content, key⟩ := alike c member
    obtain ⟨content', key'⟩ := alike c' member'
    exact ⟨fun _ => content.trans content'.symm, fun _ => key.trans key'.symm⟩
  exact ⟨empty_noEntries, harmless, apart, cachedUses_inverts,
    cache_transparent ⟨"cache"⟩ {} cachedUses empty_noEntries harmless apart cachedUses_inverts⟩

end PineLang
