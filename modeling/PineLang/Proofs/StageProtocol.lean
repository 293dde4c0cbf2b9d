import PineLang.Proofs.GeneratedFiles

/-!
The events of a build follow a protocol (`stage_protocol`). The stages come in their order and without gaps; each begins
and is done, or begins and fails and is then the last, or the first three come from the cache. The compiler is called
only once it was found and the files that it gets are written.
-/
namespace PineLang

/-! ## The protocol -/

/-- The events of stages that are gone through one after the other, up to the first that fails. -/
inductive Proceeds (file : String) : List Stage → List BuildEvent → Option BuildError → Prop
  | finished : Proceeds file [] [] none
  | done {st : Stage} {rest : List Stage} {es : List BuildEvent} {failure : Option BuildError} :
    Proceeds file rest es failure →
      Proceeds file (st :: rest) (⟨st, .working, file, none⟩ :: ⟨st, .done, file, none⟩ :: es) failure
  | failed {st : Stage} {rest : List Stage} {e : BuildError} :
    Proceeds file (st :: rest) [⟨st, .working, file, none⟩, ⟨st, .error, file, some e⟩] (some e)

/-- The stages that the cache can take the place of. -/
def cacheableStages : List Stage := [.parse, .check, .lower]

/-- The stages of making an executable from the files of a unit, and of running it. -/
def BuildRequest.linkStages (r : BuildRequest) : List Stage := .compile :: if r.run then [.run] else []

/-- The stages after those that the cache can take the place of. -/
def BuildRequest.lastStages (r : BuildRequest) : List Stage := .emit :: .runtime :: r.linkStages

/-- The events of a build, and how it ends. -/
inductive StageProtocol (r : BuildRequest) : List BuildEvent → Option BuildError → Prop
  /-- The source could not be loaded. -/
  | unloaded (fault : LoadFault) :
    StageProtocol r [⟨.parse, .error, r.path, some (.load fault)⟩] (some (.load fault))
  /-- There is no build directory to write to. -/
  | unprepared {e : BuildError} (noDirectory : ∃ fault, e = .clean fault ∨ e = .create fault) :
    StageProtocol r [] (some e)
  | fresh {es : List BuildEvent} {failure : Option BuildError} :
    Proceeds r.path (cacheableStages ++ r.lastStages) es failure → StageProtocol r es failure
  | cached {es : List BuildEvent} {failure : Option BuildError} (noDump : r.dumpsTree = false) :
    Proceeds r.path r.lastStages es failure →
      StageProtocol r (cacheableStages.map (⟨·, .cached, r.path, none⟩) ++ es) failure

theorem Proceeds.append {file : String} {first second : List Stage} {es es' : List BuildEvent} {failure : Option BuildError}
    (before : Proceeds file first es none) (next : Proceeds file second es' failure) :
    Proceeds file (first ++ second) (es ++ es') failure := by
  generalize succeeded : none = ended at before
  induction before with
  | finished => exact next
  | done _ ih => exact .done (ih succeeded)
  | failed => cases succeeded

theorem Proceeds.stop {file : String} {first : List Stage} {es : List BuildEvent} {e : BuildError}
    (before : Proceeds file first es (some e)) (second : List Stage) : Proceeds file (first ++ second) es (some e) := by
  generalize failed : some e = ended at before
  induction before with
  | finished => cases failed
  | done _ ih => exact .done (ih failed)
  | failed =>
    cases failed
    exact .failed

/-- Without a failure every stage is done. -/
theorem Proceeds.done_of_success {file : String} {stages : List Stage} {es : List BuildEvent}
    {failure : Option BuildError} (through : Proceeds file stages es failure) (succeeded : failure = none) {st : Stage}
    (member : st ∈ stages) : ⟨st, .done, file, none⟩ ∈ es := by
  induction through with
  | finished => cases member
  | done _ ih =>
    cases member with
    | head => simp
    | tail _ later => simp [ih succeeded later]
  | failed => cases succeeded

namespace BuildM

/-! ## Steps that tell nothing -/

/-- What a build asks of the compiler. -/
def asked (s : BuildState) : Bool × Option CompilerCall := (s.probed, s.call)

/-- What a build shows: its events, and what it asks of the compiler. -/
def shown (s : BuildState) : List BuildEvent × Bool × Option CompilerCall := (s.events, asked s)

/-- A step that shows nothing, also where it fails. -/
def Unseen {α : Type} (m : BuildM α) : Prop := Leaves shown m

theorem Unseen.events {α : Type} {m : BuildM α} (unseen : Unseen m) : Leaves (·.events) m :=
  fun s => congrArg Prod.fst (unseen s)

theorem Unseen.asked {α : Type} {m : BuildM α} (unseen : Unseen m) : Leaves asked m :=
  fun s => congrArg Prod.snd (unseen s)

theorem unseen_onDisk (fault : DiskFault → BuildError) (f : Disk → Except DiskFault Disk) : Unseen (onDisk fault f) := by
  refine Leaves.bind (fun _ => rfl) fun t => ?_
  cases f t.disk with
  | ok d => exact fun _ => rfl
  | error e => exact fun _ => rfl

theorem unseen_writeFile (r : BuildRequest) (fault : DiskFault → BuildError) (name : String) (text : Bytes) :
    Unseen (writeFile r fault name text) :=
  Leaves.bind (unseen_onDisk fault _) fun _ _ => rfl

theorem unseen_forM {α : Type} {f : α → BuildM PUnit} (each : ∀ a, Unseen (f a)) : ∀ l : List α, Unseen (l.forM f)
  | [] => fun _ => rfl
  | a :: l => Leaves.bind (each a) fun _ => unseen_forM each l

theorem unseen_writeOutput (r : BuildRequest) (g : Generated) : Unseen (writeOutput r g) := by
  unfold writeOutput
  exact unseen_forM (fun (name, text) => unseen_writeFile r (.write name) name text) g.files

theorem unseen_writeCompanions (r : BuildRequest) : Unseen (writeCompanions r) := by
  unfold writeCompanions
  generalize C.companions = files
  exact Leaves.bind (unseen_onDisk _ _) fun _ => Leaves.bind (unseen_forM (fun _ => unseen_onDisk _ _) files) fun _ _ => rfl

theorem unseen_prepare (r : BuildRequest) : Unseen (prepare r) := by
  unfold prepare
  split
  · exact Leaves.bind (unseen_onDisk _ _) fun _ => unseen_onDisk _ _
  · exact unseen_onDisk _ _

theorem after_get_bind {β : Type} (k : BuildState → BuildM β) (s : BuildState) : after (get >>= k) s = after (k s) s := rfl

theorem after_modify_bind {β : Type} (change : BuildState → BuildState) (k : PUnit → BuildM β) (s : BuildState) :
    after (modify change >>= k) s = after (k ⟨⟩) (change s) := rfl

/-! ## Steps that go through stages -/

/-- How a step failed. -/
def failure? {α : Type} : Except BuildError α → Option BuildError
  | .ok _ => none
  | .error e => some e

/-- A step that goes through stages. -/
def GoesThrough {α : Type} (r : BuildRequest) (stages : List Stage) (m : BuildM α) : Prop :=
  ∀ s, ∃ es, (after m s).2.events = s.events ++ es ∧ Proceeds r.path stages es (failure? (after m s).1)

theorem goesThrough_stage {α : Type} (r : BuildRequest) (st : Stage) {body : BuildM α} (silent : Leaves (·.events) body) :
    GoesThrough r [st] (stage r st body) := by
  intro s
  have kept := silent { s with events := s.events ++ [⟨st, .working, r.path, none⟩] }
  rw [after_stage]
  cases reached : after body { s with events := s.events ++ [⟨st, .working, r.path, none⟩] } with
  | mk outcome t =>
    rw [reached] at kept
    have told (last : BuildEvent) : t.events ++ [last] = s.events ++ [⟨st, .working, r.path, none⟩, last] := by
      rw [show t.events = s.events ++ [⟨st, .working, r.path, none⟩] from kept, List.append_assoc]
      rfl
    cases outcome with
    | ok a => exact ⟨_, told _, .done .finished⟩
    | error e => exact ⟨_, told _, .failed⟩

theorem GoesThrough.bind {α β : Type} {r : BuildRequest} {p q : List Stage} {m : BuildM α} {k : α → BuildM β}
    (before : GoesThrough r p m) (next : ∀ a, GoesThrough r q (k a)) :
    GoesThrough r (p ++ q) (m >>= k) := by
  intro s
  obtain ⟨es, events, proceeds⟩ := before s
  rw [after_bind]
  cases reached : after m s with
  | mk outcome t =>
    rw [reached] at events proceeds
    cases outcome with
    | ok a =>
      obtain ⟨es', events', proceeds'⟩ := next a t
      refine ⟨es ++ es', ?_, proceeds.append proceeds'⟩
      rw [← List.append_assoc, ← events]
      exact events'
    | error e => exact ⟨es, events, proceeds.stop q⟩

theorem goesThrough_pure {α : Type} (r : BuildRequest) (a : α) : GoesThrough r [] (pure a) :=
  fun s => ⟨[], (List.append_nil s.events).symm, .finished⟩

/-- A step that goes through stages without the compiler. -/
def GoesAlone {α : Type} (r : BuildRequest) (stages : List Stage) (m : BuildM α) : Prop :=
  GoesThrough r stages m ∧ Leaves asked m

theorem goesAlone_stage {α : Type} (r : BuildRequest) (st : Stage) {body : BuildM α} (unseen : Unseen body) :
    GoesAlone r [st] (stage r st body) :=
  ⟨goesThrough_stage r st unseen.events, Leaves.stage (fun _ _ _ => rfl) unseen.asked⟩

theorem GoesAlone.bind {α β : Type} {r : BuildRequest} {p q : List Stage} {m : BuildM α} {k : α → BuildM β}
    (before : GoesAlone r p m) (next : ∀ a, GoesAlone r q (k a)) :
    GoesAlone r (p ++ q) (m >>= k) :=
  ⟨before.1.bind fun a => (next a).1, before.2.bind fun a => (next a).2⟩

/-! ## From the source to the generated files -/

theorem goesAlone_frontend (r : BuildRequest) (f : SourceFile) :
    GoesAlone r (cacheableStages ++ [.emit]) (frontend r f) := by
  refine GoesAlone.bind (p := [.parse]) (goesAlone_stage r .parse ?parsing) fun tree =>
    GoesAlone.bind (p := [.check]) (goesAlone_stage r .check ?checking) fun _ =>
      GoesAlone.bind (p := [.lower]) (goesAlone_stage r .lower ?lowering) fun unit =>
        goesAlone_stage r .emit ?emitting
  case parsing =>
    refine Leaves.bind (fun _ => rfl) fun _ => ?_
    dsimp only
    split
    · exact fun _ => rfl
    · split
      · exact Leaves.bind (unseen_writeFile r .dump _ _) fun _ _ => rfl
      · exact fun _ => rfl
  case checking =>
    refine Leaves.bind (fun _ => rfl) fun _ => ?_
    cases (tree.check true).error? with
    | some summary => exact fun _ => rfl
    | none => exact fun _ => rfl
  case lowering =>
    cases tree.lower (unitName r.path) with
    | ok u => exact fun _ => rfl
    | error e => exact fun _ => rfl
  case emitting =>
    refine Leaves.bind (unseen_writeOutput r _) fun _ => ?_
    exact fun _ => rfl

/-- The events of the stages that the cache takes the place of. -/
def cachedEvents (r : BuildRequest) : List BuildEvent := cacheableStages.map (⟨·, .cached, r.path, none⟩)

theorem after_generate (r : BuildRequest) (f : SourceFile) (s : BuildState) :
    after (generate r f) s = match if r.dumpsTree then none else Cache.lookup r.cache s.disk f true with
      | some g => after (stage r .emit (writeOutput r g)) { s with cached := true, events := s.events ++ cachedEvents r }
      | none => after (frontend r f) s := by
  unfold generate
  rw [after_bind]
  change after (match if r.dumpsTree then none else Cache.lookup r.cache s.disk f true with
    | some g => _
    | none => _) s = _
  cases (if r.dumpsTree then none else Cache.lookup r.cache s.disk f true) with
  | none => rfl
  | some g =>
    have joined : s.events ++ cachedEvents r = ((s.events ++ [⟨.parse, .cached, r.path, none⟩]) ++
        [⟨.check, .cached, r.path, none⟩]) ++ [⟨.lower, .cached, r.path, none⟩] := by
      simp [cachedEvents, cacheableStages]
    rw [joined]
    rfl

/-- What was told from the source on, if these stages come after the generated files. -/
def Told (r : BuildRequest) (rest : List Stage) (es : List BuildEvent) (failure : Option BuildError) : Prop :=
  Proceeds r.path (cacheableStages ++ .emit :: rest) es failure ∨
    r.dumpsTree = false ∧ ∃ later, es = cachedEvents r ++ later ∧ Proceeds r.path (.emit :: rest) later failure

theorem told_generate {β : Type} {r : BuildRequest} {rest : List Stage} {k : Unit → BuildM β}
    (next : ∀ u, GoesThrough r rest (k u)) (f : SourceFile) (s : BuildState) :
    ∃ es, (after (generate r f >>= k) s).2.events = s.events ++ es ∧
      Told r rest es (failure? (after (generate r f >>= k) s).1) := by
  rw [after_bind, after_generate]
  cases found : (if r.dumpsTree then none else Cache.lookup r.cache s.disk f true) with
  | none =>
    obtain ⟨es, events, proceeds⟩ := (goesAlone_frontend r f).1.bind next s
    rw [after_bind] at events proceeds
    exact ⟨es, events, .inl (by simpa using proceeds)⟩
  | some g =>
    have noDump : r.dumpsTree = false := by
      by_contra dumps
      simp [dumps] at found
    obtain ⟨es, events, proceeds⟩ := (goesThrough_stage r .emit (unseen_writeOutput r g).events).bind next
      { s with cached := true, events := s.events ++ cachedEvents r }
    rw [after_bind] at events proceeds
    exact ⟨cachedEvents r ++ es, by simpa using events, .inr ⟨noDump, es, rfl, proceeds⟩⟩

theorem Told.done {r : BuildRequest} {rest : List Stage} {es : List BuildEvent} (told : Told r rest es none)
    {st : Stage} (member : st ∈ .emit :: rest) : ⟨st, .done, r.path, none⟩ ∈ es := by
  obtain through | ⟨_, later, rfl, through⟩ := told
  · exact through.done_of_success rfl (List.mem_append_right _ member)
  · exact List.mem_append_right _ (through.done_of_success rfl member)

theorem goesAlone_runtime (r : BuildRequest) : GoesAlone r [.runtime] (stage r .runtime (writeCompanions r)) :=
  goesAlone_stage r .runtime (unseen_writeCompanions r)

theorem written_asks (r : BuildRequest) (f : SourceFile) : Leaves asked (written r f) := by
  refine Leaves.bind (fun s => ?_) fun _ => (goesAlone_runtime r).2
  rw [after_generate]
  split
  · exact (goesAlone_stage r .emit (unseen_writeOutput r _)).2 _
  · exact (goesAlone_frontend r f).2 s

/-! ## The compiler -/

theorem after_link (r : BuildRequest) (s : BuildState) : after (link r) s =
    match r.toolchain.probe s.disk with
    | (d, some m) => (.error (.tool m), { s with disk := d, probed := true })
    | (d, none) => match r.toolchain.compile d r.call with
      | (d', some m) => (.error (.tool m), { s with disk := d', probed := true, call := some r.call })
      | (d', none) => (.ok (), { s with disk := d', probed := true, call := some r.call }) := by
  unfold link
  generalize r.toolchain.probe = probe
  generalize r.toolchain.compile = compile
  rw [after_get_bind]
  obtain ⟨d, _ | m⟩ := probe s.disk
  · dsimp only
    generalize compile d r.call = outcome
    obtain ⟨d', _ | m⟩ := outcome
    · rfl
    · rfl
  · rfl

/-- The compiler is called exactly if it was found. -/
theorem linked_call (r : BuildRequest) (s : BuildState) :
    (after (linked r) s).2.call = if (r.toolchain.probe s.disk).2 = none then some r.call else s.call := by
  have last : Leaves (·.call) (if r.run then stage r .run (start r) else pure ()) := by
    split
    · exact Leaves.stage (fun _ _ _ => rfl) (leaves_start (fun _ _ _ _ _ => rfl) r)
    · exact fun _ => rfl
  have compiled : (after (stage r .compile (link r)) s).2.call =
      if (r.toolchain.probe s.disk).2 = none then some r.call else s.call := by
    rw [after_stage, after_link]
    simp only
    obtain ⟨d, _ | m⟩ := r.toolchain.probe s.disk
    · dsimp only
      obtain ⟨d', _ | m⟩ := r.toolchain.compile d r.call
      · rfl
      · rfl
    · rfl
  unfold linked
  rw [after_bind, ← compiled]
  generalize after (stage r .compile (link r)) s = reached
  obtain ⟨_ | _, t⟩ := reached
  · rfl
  · exact last t

/-- A compiler that is not called has no part in a build. -/
theorem linked_uncalled {r : BuildRequest} {s : BuildState} (failed : (r.toolchain.probe s.disk).2 ≠ none) (t : Toolchain)
    (probes : t.probe = r.toolchain.probe) : after (linked { r with toolchain := t }) s = after (linked r) s := by
  have compiled : after (stage { r with toolchain := t } .compile (link { r with toolchain := t })) s =
      after (stage r .compile (link r)) s := by
    simp only [after_stage, after_link, probes]
    generalize r.toolchain.probe s.disk = answer at failed ⊢
    obtain ⟨d, _ | m⟩ := answer
    · exact absurd rfl failed
    · rfl
  unfold linked
  rw [after_bind, after_bind, compiled]
  rfl

theorem goesThrough_linked (r : BuildRequest) : GoesThrough r r.linkStages (linked r) := by
  have linking : Leaves (·.events) (link r) := by
    intro s
    rw [after_link]
    obtain ⟨d, _ | m⟩ := r.toolchain.probe s.disk
    · dsimp only
      obtain ⟨d', _ | m⟩ := r.toolchain.compile d r.call
      · rfl
      · rfl
    · rfl
  refine GoesThrough.bind (p := [.compile]) (goesThrough_stage r .compile linking) fun _ => ?_
  cases r.run with
  | false => exact goesThrough_pure r ()
  | true => exact goesThrough_stage r .run (leaves_start (fun _ _ _ _ _ => rfl) r)

/-! ## Whole builds -/

theorem prepare_fails {r : BuildRequest} {s s' : BuildState} {e : BuildError} (failed : after (prepare r) s = (.error e, s')) :
    ∃ fault, e = .clean fault ∨ e = .create fault := by
  have disk {fault : DiskFault → BuildError} {f : Disk → Except DiskFault Disk} {s s' : BuildState}
      (failed : after (onDisk fault f) s = (.error e, s')) : ∃ cause, e = fault cause := by
    rw [onDisk, after_get_bind] at failed
    cases outcome : f s.disk with
    | ok d =>
      rw [outcome] at failed
      cases failed
    | error cause =>
      rw [outcome] at failed
      cases failed
      exact ⟨cause, rfl⟩
  unfold prepare at failed
  split at failed
  · rw [after_bind] at failed
    split at failed
    · obtain ⟨cause, rfl⟩ := disk failed
      exact ⟨cause, .inr rfl⟩
    · next cleaned =>
      cases failed
      obtain ⟨cause, rfl⟩ := disk cleaned
      exact ⟨cause, .inl rfl⟩
  · obtain ⟨cause, rfl⟩ := disk failed
    exact ⟨cause, .inr rfl⟩

/-- A build has its source and its directory, or has told at most that it cannot load the source. -/
theorem after_opened {r : BuildRequest} (named : r.path ≠ "") (s : BuildState) :
    (∃ fault s', after (opened r) s = (.error (.load fault), s') ∧ asked s' = asked s ∧
      s'.events = s.events ++ [⟨.parse, .error, r.path, some (.load fault)⟩]) ∨
    (∃ e s', after (opened r) s = (.error e, s') ∧ (∃ fault, e = .clean fault ∨ e = .create fault) ∧ shown s' = shown s) ∨
    ∃ f s', Ends (opened r) s f s' ∧ shown s' = shown s := by
  have some : ¬ r.path.isEmpty = true := by simpa using named
  unfold Ends opened
  rw [if_neg some, after_get_bind, after_get_bind]
  generalize s.library.loadFile s.disk r.path = loaded
  obtain ⟨e | f, library⟩ := loaded
  · exact .inl ⟨e, _, rfl, rfl, rfl⟩
  · right
    dsimp only
    rw [after_modify_bind, after_modify_bind, after_bind]
    have kept := unseen_prepare r { s with library, bag := Option.some { limit := r.limit } }
    cases reached : after (prepare r) { s with library, bag := Option.some { limit := r.limit } } with
    | mk outcome t =>
      rw [reached] at kept
      cases outcome with
      | error e => exact .inl ⟨e, t, rfl, prepare_fails reached, kept⟩
      | ok u => exact .inr ⟨f, t, rfl, kept⟩

theorem build_of_opened {r : BuildRequest} {f : SourceFile} {s₀ s : BuildState} (isOpen : Ends (opened r) s₀ f s) :
    after (build r) s₀ = after (written r f >>= fun _ => linked r) s := by
  rw [build_eq, after_bind, show after (opened r) s₀ = (.ok f, s) from isOpen]

theorem build_of_not_opened {r : BuildRequest} {e : BuildError} {s₀ s : BuildState}
    (failed : after (opened r) s₀ = (.error e, s)) : after (build r) s₀ = (.error e, s) := by
  rw [build_eq, after_bind, failed]

theorem told_build {r : BuildRequest} (named : r.path ≠ "") (disk : Disk) :
    StageProtocol r (after (build r) (r.initial disk)).2.events (failure? (after (build r) (r.initial disk)).1) := by
  obtain ⟨fault, s, failed, -, events⟩ | ⟨e, s, failed, noDirectory, kept⟩ | ⟨f, s, isOpen, kept⟩ :=
    after_opened named (r.initial disk)
  · rw [build_of_not_opened failed, events]
    exact .unloaded fault
  · rw [build_of_not_opened failed, show s.events = [] from congrArg Prod.fst kept]
    exact .unprepared noDirectory
  · have next (u : Unit) : GoesThrough r (.runtime :: r.linkStages) (stage r .runtime (writeCompanions r) >>= fun _ => linked r) :=
      (goesAlone_runtime r).1.bind fun _ => goesThrough_linked r
    obtain ⟨es, events, told⟩ := told_generate next f s
    rw [build_of_opened isOpen, written, bind_assoc, events, show s.events = [] from congrArg Prod.fst kept]
    obtain fresh | ⟨noDump, later, rfl, through⟩ := told
    · exact .fresh fresh
    · exact .cached noDump through

/-- A build comes to a state in which all files are written that the compiler gets. -/
def ComesToCompiler (r : BuildRequest) (disk : Disk) (s : BuildState) : Prop :=
  ∃ f s₀, Ends (opened r) (r.initial disk) f s₀ ∧ Ends (written r f) s₀ () s

theorem ComesToCompiler.after_build {r : BuildRequest} {disk : Disk} {s : BuildState} (comes : ComesToCompiler r disk s)
    (t : Toolchain) : after (build { r with toolchain := t }) (r.initial disk) = after (linked { r with toolchain := t }) s := by
  obtain ⟨f, s₀, isOpen, isWritten⟩ := comes
  rw [build_of_opened (r := { r with toolchain := t }) isOpen, after_bind,
    show after (written { r with toolchain := t } f) s₀ = (.ok (), s) from isWritten]

theorem build_congr {r : BuildRequest} {t : Toolchain} {disk : Disk}
    (same : after (build { r with toolchain := t }) (r.initial disk) = after (build r) (r.initial disk)) :
    ({ r with toolchain := t }).build disk = r.build disk := by
  have start : ({ r with toolchain := t }).initial disk = r.initial disk := rfl
  unfold BuildRequest.build
  rw [start, show (build { r with toolchain := t }).run (r.initial disk) = (build r).run (r.initial disk) from same]
  rfl

theorem error_build (r : BuildRequest) (disk : Disk) : (r.build disk).error = failure? (after (build r) (r.initial disk)).1 := by
  unfold BuildRequest.build after
  generalize (build r).run (r.initial disk) = reached
  obtain ⟨_ | _, s⟩ := reached
  · rfl
  · rfl

/-- A build that does not come to the compiler neither calls it nor depends on it. -/
theorem comes_or_uncalled {r : BuildRequest} (named : r.path ≠ "") (disk : Disk) :
    (∃ s, ComesToCompiler r disk s ∧ asked s = (false, none) ∧
      ⟨.emit, .done, r.path, none⟩ ∈ s.events ∧ ⟨.runtime, .done, r.path, none⟩ ∈ s.events) ∨
    (after (build r) (r.initial disk)).2.call = none ∧
      ∀ t, after (build { r with toolchain := t }) (r.initial disk) = after (build r) (r.initial disk) := by
  have stopped {e : BuildError} {s : BuildState} (failed : after (opened r) (r.initial disk) = (.error e, s)) (t : Toolchain) :
      after (build { r with toolchain := t }) (r.initial disk) = after (build r) (r.initial disk) := by
    rw [build_of_not_opened failed, build_of_not_opened (r := { r with toolchain := t }) failed]
  obtain ⟨fault, s, failed, unasked, -⟩ | ⟨e, s, failed, -, kept⟩ | ⟨f, s, isOpen, kept⟩ := after_opened named (r.initial disk)
  · exact .inr ⟨by rw [build_of_not_opened failed]; exact congrArg Prod.snd unasked, stopped failed⟩
  · exact .inr ⟨by rw [build_of_not_opened failed]; exact congrArg (·.2.2) kept, stopped failed⟩
  · have unasked : asked (after (written r f) s).2 = (false, none) :=
      (written_asks r f s).trans (congrArg Prod.snd kept)
    obtain ⟨es, events, told⟩ := told_generate (fun _ => (goesAlone_runtime r).1) f s
    rw [← written] at events told
    cases reached : after (written r f) s with
    | mk outcome s' =>
      rw [reached] at events told unasked
      cases outcome with
      | error e =>
        have failed (t : Toolchain) : after (build { r with toolchain := t }) (r.initial disk) = (.error e, s') := by
          rw [build_of_opened (r := { r with toolchain := t }) isOpen, after_bind,
            show after (written { r with toolchain := t } f) s = (.error e, s') from reached]
        exact .inr ⟨by rw [failed r.toolchain]; exact congrArg Prod.snd unasked, fun t => (failed t).trans (failed r.toolchain).symm⟩
      | ok u =>
        have done {st : Stage} (member : st ∈ [Stage.emit, .runtime]) : ⟨st, .done, r.path, none⟩ ∈ s'.events := by
          rw [show s'.events = s.events ++ es from events]
          exact List.mem_append_right _ (Told.done told member)
        exact .inl ⟨s', ⟨f, s, isOpen, reached⟩, unasked, done (by simp), done (by simp)⟩

end BuildM

theorem StageProtocol.done_or_cached {r : BuildRequest} {es : List BuildEvent} (told : StageProtocol r es none) {st : Stage}
    (member : st ∈ cacheableStages ++ r.lastStages) :
    ⟨st, .done, r.path, none⟩ ∈ es ∨ ⟨st, .cached, r.path, none⟩ ∈ es := by
  generalize succeeded : none = failure at told
  cases told with
  | unloaded fault => cases succeeded
  | unprepared _ => cases succeeded
  | fresh through =>
    subst succeeded
    exact .inl (through.done_of_success rfl member)
  | cached _ through =>
    subst succeeded
    obtain first | last := List.mem_append.mp member
    · exact .inr (List.mem_append_left _ (List.mem_map.mpr ⟨st, first, rfl⟩))
    · exact .inl (List.mem_append_right _ (through.done_of_success rfl last))

/-- The events of a build follow the protocol, and all stages up to the compiler are done or come from the cache if the
    build succeeds. The compiler is called only in a state in which the generated and the common files are written and
    the compiler is found; without a call, the build does not depend on what a call would do. -/
theorem stage_protocol (r : BuildRequest) (disk : Disk) (named : r.path ≠ "") :
    let result := r.build disk
    let done (st : Stage) : BuildEvent := ⟨st, .done, r.path, none⟩
    StageProtocol r result.state.events result.error ∧
      (result.error = none → ∀ st ∈ cacheableStages ++ [.emit, .runtime, .compile],
        done st ∈ result.state.events ∨ ⟨st, .cached, r.path, none⟩ ∈ result.state.events) ∧
      (∀ call, result.state.call = some call → call = r.call ∧ ∃ s, BuildM.ComesToCompiler r disk s ∧
        s.probed = false ∧ s.call = none ∧ done .emit ∈ s.events ∧ done .runtime ∈ s.events ∧
        (r.toolchain.probe s.disk).2 = none) ∧
      (result.state.call = none → ∀ t : Toolchain, t.probe = r.toolchain.probe →
        ({ r with toolchain := t }).build disk = result) := by
  intro result done
  have told : StageProtocol r result.state.events result.error := by
    rw [BuildM.error_build]
    exact BuildM.told_build named disk
  have reached := BuildM.comes_or_uncalled named disk
  refine ⟨told, fun succeeded st member => ?_, fun call called => ?_, fun uncalled t probes => BuildM.build_congr ?_⟩
  · rw [succeeded] at told
    refine told.done_or_cached ?_
    simp only [cacheableStages, BuildRequest.lastStages, BuildRequest.linkStages, List.mem_append, List.mem_cons,
      List.not_mem_nil, or_false] at member ⊢
    tauto
  · change (BuildM.after (BuildM.build r) (r.initial disk)).2.call = some call at called
    obtain ⟨s, comes, unasked, emitted, extracted⟩ | ⟨uncalled, -⟩ := reached
    · rw [comes.after_build r.toolchain, BuildM.linked_call] at called
      split at called
      · next found =>
        exact ⟨(Option.some.inj called).symm, s, comes, congrArg Prod.fst unasked, congrArg Prod.snd unasked, emitted,
          extracted, found⟩
      · rw [show s.call = none from congrArg Prod.snd unasked] at called
        cases called
    · rw [uncalled] at called
      cases called
  · change (BuildM.after (BuildM.build r) (r.initial disk)).2.call = none at uncalled
    obtain ⟨s, comes, -⟩ | ⟨-, other⟩ := reached
    · have failed : (r.toolchain.probe s.disk).2 ≠ none := by
        intro found
        rw [comes.after_build r.toolchain, BuildM.linked_call, if_pos found] at uncalled
        cases uncalled
      rw [comes.after_build t, comes.after_build r.toolchain]
      exact BuildM.linked_uncalled failed t probes
    · exact other t

/-- A build of the least program by a compiler that does nothing: all stages up to the compiler are told as done. -/
theorem stage_protocol_app : (leastBuild "app.pn").path ≠ "" ∧
    StageProtocol (leastBuild "app.pn") ((leastBuild "app.pn").build (leastDisk "app.pn")).state.events none ∧
    ((leastBuild "app.pn").build (leastDisk "app.pn")).state.events =
      [Stage.parse, .check, .lower, .emit, .runtime, .compile].flatMap fun st =>
        [⟨st, .working, "app.pn", none⟩, ⟨st, .done, "app.pn", none⟩] := by
  have named : (leastBuild "app.pn").path ≠ "" := by decide
  have protocol := (stage_protocol (leastBuild "app.pn") (leastDisk "app.pn") named).1
  have succeeds : ((leastBuild "app.pn").build (leastDisk "app.pn")).error = none := by decide +kernel
  rw [succeeds] at protocol
  exact ⟨named, protocol, by decide +kernel⟩

end PineLang
