import PineLang.Proofs.StageProtocol

/-!
Which failures a build tells of. A failure is told by exactly one event, with the error that the build ends
with, unless the build directory could not be made ready: that failure is told by no event
(`failure_told_iff`).
-/
namespace PineLang

/-- The build directory could not be made ready. -/
def BuildError.isDirectory : BuildError → Bool
  | .clean _ | .create _ => true
  | _ => false

/-- The events that tell of a failure. -/
def failures (es : List BuildEvent) : List BuildEvent := es.filter (·.status == .error)

theorem failures_append (es es' : List BuildEvent) : failures (es ++ es') = failures es ++ failures es' :=
  List.filter_append ..

/-- A failure is told where it occurs, and nowhere else. -/
theorem Proceeds.failures_eq {file : String} {stages : List Stage} {es : List BuildEvent} {failure : Option BuildError}
    {e : BuildError} (through : Proceeds file stages es failure) (failed : failure = some e) :
    ∃ st, failures es = [⟨st, .error, file, some e⟩] := by
  induction through with
  | finished => cases failed
  | done _ ih =>
    obtain ⟨st, told⟩ := ih failed
    exact ⟨st, told⟩
  | @failed st _ e' =>
    cases failed
    exact ⟨st, rfl⟩

namespace BuildM

/-! ## Steps in a directory that is ready -/

/-- A step that fails, if it does, for another reason than the build directory. -/
def Housed {α : Type} (m : BuildM α) : Prop :=
  ∀ s s' e, after m s = (.error e, s') → e.isDirectory = false

section Housed

variable {α β : Type} {m : BuildM α} {r : BuildRequest}

theorem Housed.bind {k : α → BuildM β} (first : Housed m) (next : ∀ a, Housed (k a)) : Housed (m >>= k) := by
  intro s s' e failed
  rw [after_bind] at failed
  split at failed
  · exact next _ _ _ _ failed
  · next reached =>
    cases failed
    exact first _ _ _ reached

theorem Housed.stage (st : Stage) (body : Housed m) : Housed (stage r st m) := by
  intro s s' e failed
  rw [after_stage] at failed
  split at failed
  · cases failed
  · next reached =>
    cases failed
    exact body _ _ _ reached

theorem housed_of_ok {f : BuildState → α × BuildState} (succeeds : ∀ s, after m s = (.ok (f s).1, (f s).2)) : Housed m := by
  intro s s' e failed
  rw [succeeds s] at failed
  cases failed

theorem housed_pure (a : α) : Housed (pure a : BuildM α) := housed_of_ok (f := fun s => (a, s)) fun _ => rfl

theorem housed_get : Housed (get : BuildM BuildState) := housed_of_ok (f := fun s => (s, s)) fun _ => rfl

theorem housed_modify (change : BuildState → BuildState) : Housed (modify change : BuildM PUnit) :=
  housed_of_ok (f := fun s => (⟨⟩, change s)) fun _ => rfl

theorem housed_throw {e : BuildError} (other : e.isDirectory = false) : Housed (throw e : BuildM α) := by
  intro s s' e' failed
  cases failed
  exact other

theorem housed_onDisk {fault : DiskFault → BuildError} {f : Disk → Except DiskFault Disk}
    (other : ∀ cause, (fault cause).isDirectory = false) : Housed (onDisk fault f) := by
  refine housed_get.bind fun s => ?_
  cases f s.disk with
  | ok d => exact housed_modify _
  | error cause => exact housed_throw (other cause)

theorem housed_forM {f : α → BuildM PUnit} (each : ∀ a, Housed (f a)) : ∀ l : List α, Housed (l.forM f)
  | [] => housed_pure _
  | a :: l => (each a).bind fun _ => housed_forM each l

theorem housed_writeFile {fault : DiskFault → BuildError} {name : String} {text : Bytes}
    (other : ∀ cause, (fault cause).isDirectory = false) : Housed (writeFile r fault name text) :=
  (housed_onDisk other).bind fun _ => housed_modify _

theorem housed_writeOutput (g : Generated) : Housed (writeOutput r g) :=
  housed_forM (fun _ => housed_writeFile fun _ => rfl) g.files

theorem housed_writeCompanions : Housed (writeCompanions r) :=
  (housed_onDisk fun _ => rfl).bind fun _ =>
    (housed_forM (fun _ => housed_onDisk fun _ => rfl) _).bind fun _ => housed_modify _

end Housed

theorem housed_frontend (r : BuildRequest) (f : SourceFile) : Housed (frontend r f) := by
  refine (Housed.stage .parse ?parsing).bind fun tree => (Housed.stage .check ?checking).bind fun _ =>
    (Housed.stage .lower ?lowering).bind fun unit => Housed.stage .emit ?emitting
  case parsing =>
    refine (housed_modify _).bind fun _ => ?_
    dsimp only
    split
    · exact housed_throw rfl
    · split
      · exact (housed_writeFile fun _ => rfl).bind fun _ => housed_pure _
      · exact housed_pure _
  case checking =>
    refine (housed_modify _).bind fun _ => ?_
    cases (tree.check true).error? with
    | some summary => exact housed_throw rfl
    | none => exact housed_pure _
  case lowering =>
    cases tree.lower (unitName r.path) with
    | ok u => exact housed_pure _
    | error e => exact housed_throw rfl
  case emitting => exact (housed_writeOutput _).bind fun _ => housed_modify _

theorem housed_written (r : BuildRequest) (f : SourceFile) : Housed (written r f) := by
  refine Housed.bind (fun s s' e failed => ?_) fun _ => housed_writeCompanions.stage .runtime
  rw [after_generate] at failed
  split at failed
  · exact (housed_writeOutput _).stage .emit _ _ _ failed
  · exact housed_frontend r f _ _ _ failed

theorem housed_linked (r : BuildRequest) : Housed (linked r) := by
  refine (Housed.stage .compile fun s s' e failed => ?_).bind fun _ => ?_
  · rw [after_link] at failed
    split at failed
    · cases failed
      rfl
    · split at failed
      · cases failed
        rfl
      · cases failed
  · split
    · refine Housed.stage .run (housed_get.bind fun s => ?_)
      split
      · exact housed_modify _
      · exact (housed_modify _).bind fun _ => housed_throw rfl
    · exact housed_pure _

/-! ## Whole builds -/

/-- How a build that fails has told of it: by one event with its error, or by no event at all, if the directory is to
    blame. -/
theorem failures_build {r : BuildRequest} (named : r.path ≠ "") {disk : Disk} {e : BuildError} {s : BuildState}
    (failed : after (build r) (r.initial disk) = (.error e, s)) :
    e.isDirectory = false ∧ (∃ st, failures s.events = [⟨st, .error, r.path, some e⟩]) ∨
      e.isDirectory = true ∧ s.events = [] := by
  obtain ⟨fault, t, unloaded, -, events⟩ | ⟨e', t, unprepared, noDirectory, kept⟩ | ⟨f, t, isOpen, -⟩ :=
    after_opened named (r.initial disk)
  · rw [build_of_not_opened unloaded] at failed
    cases failed
    exact .inl ⟨rfl, .parse, by rw [events]; rfl⟩
  · rw [build_of_not_opened unprepared] at failed
    cases failed
    refine .inr ⟨?_, congrArg Prod.fst kept⟩
    obtain ⟨cause, rfl | rfl⟩ := noDirectory <;> rfl
  · have other : e.isDirectory = false := by
      rw [build_of_opened isOpen] at failed
      exact (housed_written r f).bind (fun _ => housed_linked r) _ _ _ failed
    have told : StageProtocol r s.events (some e) := by
      have told := told_build named disk
      rw [failed] at told
      exact told
    generalize s.events = es at told
    cases told with
    | unloaded fault => exact .inl ⟨rfl, .parse, rfl⟩
    | unprepared noDirectory =>
      obtain ⟨cause, rfl | rfl⟩ := noDirectory <;> cases other
    | fresh through => exact .inl ⟨other, through.failures_eq rfl⟩
    | cached _ through =>
      obtain ⟨st, told⟩ := through.failures_eq rfl
      exact .inl ⟨other, st, by rw [failures_append, told]; rfl⟩

end BuildM

/-- A build that fails tells so by exactly one event, which bears its error, if and only if the build
    directory is not to blame. If that could not be cleaned or made, the build tells nothing at all. -/
theorem failure_told_iff (r : BuildRequest) (disk : Disk) (named : r.path ≠ "") (e : BuildError)
    (failed : (r.build disk).error = some e) :
    ((∃ st, failures (r.build disk).state.events = [⟨st, .error, r.path, some e⟩]) ↔ e.isDirectory = false) ∧
      (e.isDirectory = true → (r.build disk).state.events = []) := by
  have events : (r.build disk).state.events = (BuildM.after (BuildM.build r) (r.initial disk)).2.events := rfl
  rw [BuildM.error_build] at failed
  rw [events]
  cases reached : BuildM.after (BuildM.build r) (r.initial disk) with
  | mk outcome s =>
    rw [reached] at failed
    cases outcome with
    | ok u => cases failed
    | error e' =>
      cases failed
      obtain ⟨other, told⟩ | ⟨directory, silent⟩ := BuildM.failures_build named reached
      · exact ⟨⟨fun _ => other, fun _ => told⟩, fun directory => by rw [other] at directory; cases directory⟩
      · refine ⟨⟨fun ⟨st, told⟩ => ?_, fun other => ?_⟩, fun _ => silent⟩
        · simp only [silent] at told
          cases told
        · rw [directory] at other
          cases other

/-- A build into a directory below a file, where none can be made. -/
def blockedBuild : BuildRequest := { leastBuild "app.pn" with buildDir := "app.pn/out" }

/-- A build by a compiler that is not there. -/
def uncompiledBuild : BuildRequest :=
  { leastBuild "app.pn" with toolchain := ⟨fun d => (d, some (utf8 "missing")), fun d _ => (d, none)⟩ }

theorem failure_told_uncompiled : uncompiledBuild.path ≠ "" ∧
    (uncompiledBuild.build (leastDisk "app.pn")).error = some (.tool (utf8 "missing")) ∧
    ∃ st, failures (uncompiledBuild.build (leastDisk "app.pn")).state.events =
      [⟨st, .error, "app.pn", some (.tool (utf8 "missing"))⟩] := by
  have named : uncompiledBuild.path ≠ "" := by decide
  have failed : (uncompiledBuild.build (leastDisk "app.pn")).error = some (.tool (utf8 "missing")) := by decide +kernel
  exact ⟨named, failed, (failure_told_iff uncompiledBuild (leastDisk "app.pn") named _ failed).1.mpr rfl⟩

/-- The build directory cannot be made, and no event says so. -/
theorem directory_failure_untold : blockedBuild.path ≠ "" ∧
    (blockedBuild.build (leastDisk "app.pn")).error = some (.create ⟨"mkdir", "app.pn", .notDirectory⟩) ∧
    (blockedBuild.build (leastDisk "app.pn")).state.events = [] := by
  decide

end PineLang
