import Mathlib.Data.List.Basic
import PineLang.Diag.SharedStream

/-!
A shared stream loses and repeats nothing, whatever the schedule (`shared_stream_complete`). What a step can be is said once
(`Step`). From it, three things hold after every schedule: the locks are held by those who think so and everybody is right
about the stream (`Consistent`), every accepted report is at one place between its thread and those that were handed out
(`Flows`), and nothing is handed out after a close has returned (`Settled`).
-/
namespace PineLang
namespace SharedStream

variable {ι : Type} [DecidableEq ι]

/-! ## Steps -/

/-- What a step can be. -/
inductive Step (s : State ι) : State ι → Prop
  | begin {i : ι} {c : Call} (phase : s.phases i = .idle) : Step s (s.set i c.first)
  | enter {i : ι} {d : Diagnostic} (phase : s.phases i = .entering d) (free : s.writer = none) :
    Step s { s.set i (.testing d) with readers := i :: s.readers }
  | sawOpen {i : ι} {d : Diagnostic} (phase : s.phases i = .testing d) (isOpen : s.isClosed = false) :
    Step s { s.set i (.sending d) with history := s.history ++ [.saw ⟨i, d⟩ true] }
  | sawClosed {i : ι} {d : Diagnostic} (phase : s.phases i = .testing d) (closed : s.isClosed = true) :
    Step s { s.set i .leaving with history := s.history ++ [.saw ⟨i, d⟩ false] }
  | sendCrash {i : ι} {d : Diagnostic} (phase : s.phases i = .sending d) (shut : s.isShut = true) :
    Step s { s with crashed := true }
  | send {i : ι} {d : Diagnostic} (phase : s.phases i = .sending d) (notShut : s.isShut = false) :
    Step s { s.set i .leaving with channel := s.channel ++ [⟨i, d⟩] }
  | leave {i : ι} (phase : s.phases i = .leaving) :
    Step s { s.set i .idle with readers := s.readers.filter (· ≠ i) }
  | lock {i : ι} (phase : s.phases i = .locking) (free : s.writer = none) (alone : s.readers = []) :
    Step s { s.set i .closing with writer := some i }
  | foundClosed {i : ι} (phase : s.phases i = .closing) (closed : s.isClosed = true) : Step s (s.set i .unlocking)
  | close {i : ι} (phase : s.phases i = .closing) (isOpen : s.isClosed = false) :
    Step s { s.set i .shutting with isClosed := true }
  | shutCrash {i : ι} (phase : s.phases i = .shutting) (shut : s.isShut = true) : Step s { s with crashed := true }
  | shut {i : ι} (phase : s.phases i = .shutting) (notShut : s.isShut = false) :
    Step s { s.set i .unlocking with isShut := true }
  | unlock {i : ι} (phase : s.phases i = .unlocking) : Step s { s.set i .waiting with writer := none }
  | wake {i : ι} (phase : s.phases i = .waiting) (finished : s.collector = .finished) : Step s (s.set i (.wanting true))
  | own {i : ι} {closes : Bool} (phase : s.phases i = .wanting closes) (free : s.owner = none) :
    Step s { s.set i (.taking closes) with owner := some (.thread i) }
  | take {i : ι} {closes : Bool} (phase : s.phases i = .taking closes) :
    Step s { s.set i (.handing closes s.buffer) with buffer := [] }
  | handOut {i : ι} {closes : Bool} {out : List (Item ι)} (phase : s.phases i = .handing closes out) :
    Step s { s.set i .idle with owner := none, history := s.history ++ [.returned i closes out] }
  | receive {x : Item ι} {rest : List (Item ι)} (phase : s.collector = .receiving) (some : s.channel = x :: rest) :
    Step s { s with collector := .holding x, channel := rest }
  | finish (phase : s.collector = .receiving) (none : s.channel = []) (shut : s.isShut = true) :
    Step s { s with collector := .finished }
  | collectorOwns {x : Item ι} (phase : s.collector = .holding x) (free : s.owner = none) :
    Step s { s with collector := .storing x, owner := some .collector }
  | store {x : Item ι} (phase : s.collector = .storing x) :
    Step s { s with collector := .stored, buffer := s.buffer ++ [x] }
  | release (phase : s.collector = .stored) : Step s { s with collector := .receiving, owner := none }
  | handOver {i : ι} {d : Diagnostic} (phase : s.phases i = .sending d) (receiving : s.collector = .receiving)
    (none : s.channel = []) (notShut : s.isShut = false) :
    Step s { s.set i .leaving with collector := .holding ⟨i, d⟩ }

theorem step_of_move {s s' : State ι} {i : ι} (moved : s.move i = some s') : Step s s' := by
  unfold State.move at moved
  split at moved
  case h_1 => cases moved
  case h_2 d phase =>
    split at moved <;> cases moved
    next free => exact .enter phase (Option.isNone_iff_eq_none.mp free)
  case h_3 d phase =>
    cases moved
    cases closed : s.isClosed with
    | false => exact .sawOpen phase closed
    | true => exact .sawClosed phase closed
  case h_4 d phase =>
    split at moved
    · next shut =>
      cases moved
      exact .sendCrash phase shut
    · next notShut =>
      split at moved <;> cases moved
      exact .send phase (Bool.eq_false_iff.mpr notShut)
  case h_5 phase =>
    cases moved
    exact .leave phase
  case h_6 phase =>
    split at moved <;> cases moved
    next free =>
      rw [Bool.and_eq_true, Option.isNone_iff_eq_none, List.isEmpty_iff] at free
      exact .lock phase free.1 free.2
  case h_7 phase =>
    split at moved <;> cases moved
    · next closed => exact .foundClosed phase closed
    · next isOpen => exact .close phase (Bool.eq_false_iff.mpr isOpen)
  case h_8 phase =>
    split at moved <;> cases moved
    · next shut => exact .shutCrash phase shut
    · next notShut => exact .shut phase (Bool.eq_false_iff.mpr notShut)
  case h_9 phase =>
    cases moved
    exact .unlock phase
  case h_10 phase =>
    split at moved <;> cases moved
    next finished => exact .wake phase finished
  case h_11 closes phase =>
    split at moved <;> cases moved
    next free => exact .own phase (Option.isNone_iff_eq_none.mp free)
  case h_12 closes phase =>
    cases moved
    exact .take phase
  case h_13 closes out phase =>
    cases moved
    exact .handOut phase

theorem step_of_collect {s s' : State ι} (moved : s.collect = some s') : Step s s' := by
  unfold State.collect at moved
  split at moved
  · next receiving =>
    split at moved
    · next channel =>
      cases moved
      exact .receive receiving channel
    · next channel =>
      split at moved <;> cases moved
      next shut => exact .finish receiving channel shut
  · next holding =>
    split at moved <;> cases moved
    next free => exact .collectorOwns holding (Option.isNone_iff_eq_none.mp free)
  · next storing =>
    cases moved
    exact .store storing
  · next stored =>
    cases moved
    exact .release stored
  · cases moved

theorem step_of_handOver {s s' : State ι} {i : ι} (moved : s.handOver i = some s') : Step s s' := by
  unfold State.handOver at moved
  split at moved
  · next d phase receiving channel =>
    split at moved <;> cases moved
    next notShut => exact .handOver phase receiving channel (Bool.eq_false_iff.mpr notShut)
  · cases moved

theorem step_of_begin {s s' : State ι} {i : ι} {c : Call} (moved : s.begin i c = some s') : Step s s' := by
  unfold State.begin at moved
  split at moved <;> cases moved
  next phase => exact .begin phase

theorem step_cases {s s' : State ι} {a : Action ι} (moved : s.step a = some s') : Step s s' := by
  unfold State.step at moved
  split at moved
  · cases moved
  · cases a with
    | call i c => exact step_of_begin moved
    | move i => exact step_of_move moved
    | handOver i => exact step_of_handOver moved
    | collect => exact step_of_collect moved

/-! ## Locks -/

/-- The thread holds the lock of the flag for reading. -/
@[grind =] def Phase.isReading : Phase ι → Bool
  | testing _ | sending _ | leaving => true
  | _ => false

/-- The thread holds the lock of the flag for writing. -/
@[grind =] def Phase.isWriting : Phase ι → Bool
  | closing | shutting | unlocking => true
  | _ => false

/-- The thread holds the lock of the buffer. -/
@[grind =] def Phase.isOwning : Phase ι → Bool
  | taking _ | handing _ _ => true
  | _ => false

/-- The collector holds the lock of the buffer. -/
@[grind =] def Collector.isOwning : Collector ι → Bool
  | storing _ | stored => true
  | _ => false

@[simp] theorem State.set_phases (s : State ι) (i j : ι) (p : Phase ι) :
    (s.set i p).phases j = if j = i then p else s.phases j := rfl

/-- The locks are held by those who think that they hold them, and a writer is alone. -/
structure Locks (s : State ι) : Prop where
  readers : ∀ i, i ∈ s.readers ↔ (s.phases i).isReading = true
  writer : ∀ i, s.writer = some i ↔ (s.phases i).isWriting = true
  alone : s.writer ≠ none → s.readers = []
  owner : ∀ i, s.owner = some (.thread i) ↔ (s.phases i).isOwning = true
  collector : s.owner = some .collector ↔ s.collector.isOwning = true

/-- A thread that goes on without a lock more or less. -/
theorem Locks.set {s : State ι} (locks : Locks s) {i : ι} {p q : Phase ι} (phase : s.phases i = p)
    (reading : q.isReading = p.isReading) (writing : q.isWriting = p.isWriting) (owning : q.isOwning = p.isOwning) :
    Locks (s.set i q) where
  readers j := by
    refine (locks.readers j).trans ?_
    by_cases same : j = i
    · rw [same, State.set_phases, if_pos rfl, phase, reading]
    · rw [State.set_phases, if_neg same]
  writer j := by
    refine (locks.writer j).trans ?_
    by_cases same : j = i
    · rw [same, State.set_phases, if_pos rfl, phase, writing]
    · rw [State.set_phases, if_neg same]
  alone := locks.alone
  owner j := by
    refine (locks.owner j).trans ?_
    by_cases same : j = i
    · rw [same, State.set_phases, if_pos rfl, phase, owning]
    · rw [State.set_phases, if_neg same]
  collector := locks.collector

omit [DecidableEq ι] in
theorem Locks.noWriter {s : State ι} (locks : Locks s) {i : ι} (reading : (s.phases i).isReading = true) :
    s.writer = none := by
  by_contra some
  have reads := (locks.readers i).mpr reading
  rw [locks.alone some] at reads
  cases reads

omit [DecidableEq ι] in
theorem Locks.one_writer {s : State ι} (locks : Locks s) {i j : ι} (mine : (s.phases i).isWriting = true)
    (its : (s.phases j).isWriting = true) : j = i :=
  Option.some.inj (((locks.writer j).mpr its).symm.trans ((locks.writer i).mpr mine))

theorem Locks.step {s s' : State ι} (locks : Locks s) (step : Step s s') : Locks s' := by
  have ⟨readers, writer, alone, owner, collector⟩ := locks
  cases step with
  | begin phase => exact locks.set phase (by cases ‹Call› <;> rfl) (by cases ‹Call› <;> rfl) (by cases ‹Call› <;> rfl)
  | sawOpen phase => exact { locks.set (q := .sending _) phase rfl rfl rfl with }
  | sawClosed phase => exact { locks.set (q := .leaving) phase rfl rfl rfl with }
  | send phase => exact { locks.set (q := .leaving) phase rfl rfl rfl with }
  | foundClosed phase => exact locks.set phase rfl rfl rfl
  | close phase => exact { locks.set (q := .shutting) phase rfl rfl rfl with }
  | shut phase => exact { locks.set (q := .unlocking) phase rfl rfl rfl with }
  | wake phase => exact locks.set phase rfl rfl rfl
  | take phase => exact { locks.set (q := .handing _ _) phase rfl rfl rfl with }
  | handOver phase receiving =>
    exact { locks.set (q := .leaving) phase rfl rfl rfl with
      collector := collector.trans (by rw [receiving]; rfl) }
  | sendCrash => exact { locks with }
  | shutCrash => exact { locks with }
  | receive phase => exact { locks with collector := collector.trans (by rw [phase]; rfl) }
  | finish phase => exact { locks with collector := collector.trans (by rw [phase]; rfl) }
  | store phase => exact { locks with collector := collector.trans (by rw [phase]; rfl) }
  -- The steps that take or give back a lock: it changes hands for this thread and for no other.
  | @enter i d phase free =>
    refine { locks with
      alone := fun some => absurd free some, readers := fun j => ?_, writer := fun j => ?_, owner := fun j => ?_ }
    all_goals
      by_cases same : j = i
      · simp [State.set, same, free, phase, Phase.isReading, Phase.isWriting, Phase.isOwning, owner]
      · simp [State.set, same, readers, writer, owner]
  | @leave i phase =>
    have free := locks.noWriter (i := i) (by rw [phase]; rfl)
    refine { locks with
      alone := fun some => absurd free some, readers := fun j => ?_, writer := fun j => ?_, owner := fun j => ?_ }
    all_goals
      by_cases same : j = i
      · simp [State.set, same, free, phase, Phase.isReading, Phase.isWriting, Phase.isOwning, owner]
      · simp [State.set, same, readers, writer, owner]
  | @lock i phase free unread =>
    refine { locks with alone := fun _ => unread, readers := fun j => ?_, writer := fun j => ?_, owner := fun j => ?_ }
    all_goals
      by_cases same : j = i
      · simp [State.set, same, unread, phase, Phase.isReading, Phase.isWriting, Phase.isOwning, owner]
      · simp [State.set, same, Ne.symm same, readers, ← writer, free, owner]
  | @unlock i phase =>
    have mine : s.writer = some i := (writer i).mpr (by rw [phase]; rfl)
    refine { locks with alone := fun some => absurd rfl some, readers := fun j => ?_, writer := fun j => ?_, owner := fun j => ?_ }
    all_goals
      by_cases same : j = i
      · simp [State.set, same, phase, Phase.isReading, Phase.isWriting, Phase.isOwning, readers, owner]
      · simp [State.set, same, Ne.symm same, readers, ← writer, mine, owner]
  | @own i closes phase free =>
    refine { locks with
      readers := fun j => ?_, writer := fun j => ?_, owner := fun j => ?_
      collector := by simpa [State.set, free] using collector }
    all_goals
      by_cases same : j = i
      · simp [State.set, same, phase, Phase.isReading, Phase.isWriting, Phase.isOwning, readers, writer]
      · simp [State.set, same, Ne.symm same, readers, writer, ← owner, free]
  | @handOut i closes out phase =>
    have mine : s.owner = some (.thread i) := (owner i).mpr (by rw [phase]; rfl)
    refine { locks with
      readers := fun j => ?_, writer := fun j => ?_, owner := fun j => ?_
      collector := by simpa [State.set, mine] using collector }
    all_goals
      by_cases same : j = i
      · simp [State.set, same, phase, Phase.isReading, Phase.isWriting, Phase.isOwning, readers, writer]
      · simp [State.set, same, Ne.symm same, readers, writer, ← owner, mine]
  | collectorOwns phase free =>
    exact { locks with owner := fun j => by simpa [free] using owner j, collector := by simp [Collector.isOwning] }
  | release phase =>
    have mine : s.owner = some .collector := collector.mpr (by rw [phase]; rfl)
    exact { locks with owner := fun j => by simpa [mine] using owner j, collector := by simp [Collector.isOwning] }

/-! ## What threads know -/

/-- What a thread has taken out of the buffer and not yet handed out. -/
def Phase.out : Phase ι → List (Item ι)
  | handing _ out => out
  | _ => []

/-- What was taken out of the buffer and not yet handed out. -/
def State.inHand (s : State ι) : List (Item ι) :=
  match s.owner with
  | some (.thread i) => (s.phases i).out
  | _ => []

/-- What a thread can rely on in a phase. -/
def Phase.Knows (s : State ι) : Phase ι → Prop
  | sending _ => s.isClosed = false
  | shutting => s.isClosed = true ∧ s.isShut = false
  | unlocking | waiting => s.isShut = true
  | wanting closes | taking closes => closes = true → s.collector = .finished
  | handing closes _ => s.buffer = [] ∧ (closes = true → s.collector = .finished)
  | _ => True

/-- What holds of a stream in every state. -/
structure Consistent (s : State ι) : Prop where
  locks : Locks s
  running : s.crashed = false
  knows : ∀ i, (s.phases i).Knows s
  shut : s.isShut = true → s.isClosed = true
  closed : s.isClosed = true → s.isShut = true ∨ ∃ i, s.phases i = .shutting
  finished : s.collector = .finished → s.isShut = true ∧ s.channel = []
  quiet : hasClosed s.history = true → s.collector = .finished ∧ s.buffer = [] ∧ s.inHand = []

omit [DecidableEq ι] in
/-- What a thread can rely on stays true while the stream does not change in these respects. -/
theorem Phase.Knows.mono {s s' : State ι} {p : Phase ι} (knows : p.Knows s) (closed : s'.isClosed = s.isClosed)
    (shut : s'.isShut = s.isShut) (buffer : s.buffer = [] → s'.buffer = [])
    (finished : s.collector = .finished → s'.collector = .finished) : p.Knows s' := by
  cases p with
  | sending d => exact closed.trans knows
  | shutting => exact ⟨closed.trans knows.1, shut.trans knows.2⟩
  | unlocking => exact shut.trans knows
  | waiting => exact shut.trans knows
  | wanting closes => exact fun closing => finished (knows closing)
  | taking closes => exact fun closing => finished (knows closing)
  | handing closes out => exact ⟨buffer knows.1, fun closing => finished (knows.2 closing)⟩
  | _ => trivial

theorem knows_set {s s' : State ι} {i : ι} {q : Phase ι} (own : q.Knows s') (others : ∀ j, j ≠ i → (s.phases j).Knows s')
    (phases : s'.phases = (s.set i q).phases) (j : ι) : (s'.phases j).Knows s' := by
  rw [phases, State.set_phases]
  split
  · exact own
  · next other => exact others j other

theorem inHand_set {s : State ι} {i : ι} {p q : Phase ι} (phase : s.phases i = p) (same : q.out = p.out) :
    (s.set i q).inHand = s.inHand := by
  unfold State.inHand
  rw [show (s.set i q).owner = s.owner from rfl]
  cases s.owner with
  | none => rfl
  | some holder =>
    cases holder with
    | collector => rfl
    | thread j =>
      simp only [State.set_phases]
      split
      · next own => rw [own, phase, same]
      · rfl

theorem Consistent.closed_set {s : State ι} (c : Consistent s) {i : ι} {p : Phase ι} (phase : s.phases i = p)
    (other : p ≠ .shutting) (q : Phase ι) (closed : s.isClosed = true) :
    s.isShut = true ∨ ∃ j, (s.set i q).phases j = .shutting := by
  refine (c.closed closed).imp_right fun ⟨j, shutting⟩ => ⟨j, ?_⟩
  have apart : j ≠ i := fun same => other (by rw [← phase, ← same, shutting])
  rw [State.set_phases, if_neg apart, shutting]

/-- The part of a stream that its threads share, without its locks. -/
def State.shared (s : State ι) : Bool × Bool × List (Item ι) × Collector ι × List (Item ι) × Bool :=
  (s.isClosed, s.isShut, s.channel, s.collector, s.buffer, s.crashed)

/-- A thread that goes on without a change to what is shared. -/
theorem Consistent.pass {s s' : State ι} (c : Consistent s) (locks : Locks s') {i : ι} {p q : Phase ι}
    (phase : s.phases i = p) (phases : s'.phases = (s.set i q).phases) (same : s'.shared = s.shared)
    (inHand : s'.inHand = s.inHand) (told : hasClosed s'.history = hasClosed s.history) (other : p ≠ .shutting)
    (knows : q.Knows s) : Consistent s' := by
  simp only [State.shared, Prod.mk.injEq] at same
  obtain ⟨closed, shut, channel, collector, buffer, crashed⟩ := same
  have carry {r : Phase ι} (known : r.Knows s) : r.Knows s' :=
    known.mono closed shut (fun empty => buffer.trans empty) fun finished => collector.trans finished
  refine ⟨locks, crashed.trans c.running, knows_set (carry knows) (fun j _ => carry (c.knows j)) phases, ?_, ?_, ?_, ?_⟩
  · rw [shut, closed]
    exact c.shut
  · rw [closed, shut, phases]
    exact c.closed_set phase other q
  · rw [collector, shut, channel]
    exact c.finished
  · rw [told, collector, buffer, inHand]
    exact c.quiet

omit [DecidableEq ι] in
/-- A collector that goes on before the stream is closed, without a change to the buffer. -/
theorem Consistent.gather {s s' : State ι} (c : Consistent s) (locks : Locks s') (going : s.collector ≠ .finished)
    (goes : s'.collector ≠ .finished)
    (same : (s'.phases, s'.isClosed, s'.isShut, s'.buffer, s'.crashed, s'.history) =
      (s.phases, s.isClosed, s.isShut, s.buffer, s.crashed, s.history)) : Consistent s' := by
  simp only [Prod.mk.injEq] at same
  obtain ⟨phases, closed, shut, buffer, crashed, history⟩ := same
  refine ⟨locks, crashed.trans c.running, fun j => ?_, ?_, ?_, fun finished => absurd finished goes, fun told => ?_⟩
  · rw [phases]
    exact (c.knows j).mono closed shut (fun empty => buffer.trans empty) fun finished => absurd finished going
  · rw [shut, closed]
    exact c.shut
  · rw [closed, shut, phases]
    exact c.closed
  · rw [history] at told
    exact absurd (c.quiet told).1 going

omit [DecidableEq ι] in
theorem hasClosed_append_saw (history : List (Event ι)) (x : Item ι) (isOpen : Bool) :
    hasClosed (history ++ [.saw x isOpen]) = hasClosed history := by
  simp [hasClosed]

omit [DecidableEq ι] in
theorem hasClosed_append_returned (history : List (Event ι)) (i : ι) (closes : Bool) (out : List (Item ι)) :
    hasClosed (history ++ [.returned i closes out]) = (hasClosed history || closes) := by
  simp [hasClosed]

theorem Consistent.step {s s' : State ι} (c : Consistent s) (step : Step s s') : Consistent s' := by
  have locks := c.locks.step step
  cases step with
  | @begin i call phase =>
    refine c.pass locks phase rfl rfl (inHand_set phase ?_) rfl nofun ?_
    · cases call <;> rfl
    · cases call <;> simp [Call.first, Phase.Knows]
  | enter phase => exact c.pass locks phase rfl rfl (inHand_set phase rfl) rfl nofun trivial
  | sawOpen phase isOpen =>
    exact c.pass locks phase rfl rfl (inHand_set phase rfl) (hasClosed_append_saw ..) nofun isOpen
  | sawClosed phase =>
    exact c.pass locks phase rfl rfl (inHand_set phase rfl) (hasClosed_append_saw ..) nofun trivial
  | leave phase => exact c.pass locks phase rfl rfl (inHand_set phase rfl) rfl nofun trivial
  | lock phase => exact c.pass locks phase rfl rfl (inHand_set phase rfl) rfl nofun trivial
  | unlock phase =>
    exact c.pass locks phase rfl rfl (inHand_set phase rfl) rfl nofun (show Phase.Knows s .unlocking from phase ▸ c.knows _)
  | wake phase finished => exact c.pass locks phase rfl rfl (inHand_set phase rfl) rfl nofun fun _ => finished
  | @foundClosed i phase closed =>
    refine c.pass locks phase rfl rfl (inHand_set phase rfl) rfl nofun ((c.closed closed).resolve_right ?_)
    rintro ⟨j, shutting⟩
    have same : j = i := c.locks.one_writer (by rw [phase]; rfl) (by rw [shutting]; rfl)
    rw [same, phase] at shutting
    cases shutting
  | @own i closes phase free =>
    have knows : Phase.Knows s (.wanting closes) := phase ▸ c.knows i
    refine c.pass (q := .taking closes) locks phase rfl rfl ?_ rfl nofun knows
    simp [State.inHand, State.set, free, Phase.out]
  | @sendCrash i d phase shut =>
    have isOpen : Phase.Knows s (.sending d) := phase ▸ c.knows i
    cases isOpen.symm.trans (c.shut shut)
  | @shutCrash i phase shut =>
    have knows : Phase.Knows s .shutting := phase ▸ c.knows i
    cases knows.2.symm.trans shut
  | @send i d phase notShut =>
    have isOpen : Phase.Knows s (.sending d) := phase ▸ c.knows i
    have going : s.collector ≠ .finished := fun finished => by cases notShut.symm.trans (c.finished finished).1
    exact { locks
            running := c.running
            knows := knows_set (q := .leaving) trivial (fun j _ => (c.knows j).mono rfl rfl id id) rfl
            shut := c.shut
            closed := fun closed => by cases isOpen.symm.trans closed
            finished := fun finished => absurd finished going
            quiet := fun told => absurd (c.quiet told).1 going }
  | @handOver i d phase receiving none notShut =>
    have isOpen : Phase.Knows s (.sending d) := phase ▸ c.knows i
    have going : s.collector ≠ .finished := fun finished => by cases notShut.symm.trans (c.finished finished).1
    exact { locks
            running := c.running
            knows := knows_set (q := .leaving) trivial
              (fun j _ => (c.knows j).mono rfl rfl id fun finished => absurd finished going) rfl
            shut := c.shut
            closed := fun closed => by cases isOpen.symm.trans closed
            finished := nofun
            quiet := fun told => absurd (c.quiet told).1 going }
  | @close i phase isOpen =>
    have notShut : s.isShut = false := by
      by_contra shut
      cases isOpen.symm.trans (c.shut (Bool.of_not_eq_false shut))
    have mine := (c.locks.writer i).mpr (by rw [phase]; rfl)
    -- A thread that relies on the open stream would hold the lock that this thread has alone.
    have others (j : ι) : (s.phases j).Knows (({ s.set i .shutting with isClosed := true } : State ι)) := by
      have knows := c.knows j
      cases at_ : s.phases j with
      | sending d =>
        have reads := (c.locks.readers j).mpr (by rw [at_]; rfl)
        rw [c.locks.alone (by rw [mine]; nofun)] at reads
        cases reads
      | shutting =>
        rw [at_] at knows
        cases isOpen.symm.trans knows.1
      | _ =>
        rw [at_] at knows
        exact knows
    exact { locks
            running := c.running
            knows := knows_set (q := .shutting) ⟨rfl, notShut⟩ (fun j _ => others j) rfl
            shut := fun _ => rfl
            closed := fun _ => .inr ⟨i, if_pos rfl⟩
            finished := c.finished
            quiet := fun told =>
              ⟨(c.quiet told).1, (c.quiet told).2.1, (inHand_set (q := .shutting) phase rfl).trans (c.quiet told).2.2⟩ }
  | @shut i phase notShut =>
    have knows : Phase.Knows s .shutting := phase ▸ c.knows i
    have others (j : ι) (other : j ≠ i) :
        (s.phases j).Knows (({ s.set i .unlocking with isShut := true } : State ι)) := by
      have knows := c.knows j
      cases at_ : s.phases j with
      | shutting => exact absurd (c.locks.one_writer (by rw [phase]; rfl) (by rw [at_]; rfl)) other
      | unlocking => rfl
      | waiting => rfl
      | _ =>
        rw [at_] at knows
        exact knows
    exact { locks
            running := c.running
            knows := knows_set (q := .unlocking) rfl others rfl
            shut := fun _ => knows.1
            closed := fun _ => .inl rfl
            finished := fun finished => ⟨rfl, (c.finished finished).2⟩
            quiet := fun told =>
              ⟨(c.quiet told).1, (c.quiet told).2.1, (inHand_set (q := .unlocking) phase rfl).trans (c.quiet told).2.2⟩ }
  | @take i closes phase =>
    have knows : Phase.Knows s (.taking closes) := phase ▸ c.knows i
    have mine : s.owner = some (.thread i) := (c.locks.owner i).mpr (by rw [phase]; rfl)
    exact { locks
            running := c.running
            knows := knows_set (q := .handing closes s.buffer) ⟨rfl, knows⟩
              (fun j _ => (c.knows j).mono rfl rfl (fun _ => rfl) id) rfl
            shut := c.shut
            closed := c.closed_set phase nofun (.handing closes s.buffer)
            finished := c.finished
            quiet := fun told => ⟨(c.quiet told).1, rfl, by
              simpa [State.inHand, State.set, mine, Phase.out] using (c.quiet told).2.1⟩ }
  | @handOut i closes out phase =>
    have knows : Phase.Knows s (.handing closes out) := phase ▸ c.knows i
    exact { locks
            running := c.running
            knows := knows_set (q := .idle) trivial (fun j _ => (c.knows j).mono rfl rfl id id) rfl
            shut := c.shut
            closed := c.closed_set phase nofun .idle
            finished := c.finished
            quiet := fun told => by
              rw [hasClosed_append_returned, Bool.or_eq_true] at told
              obtain before | closing := told
              · exact ⟨(c.quiet before).1, (c.quiet before).2.1, rfl⟩
              · exact ⟨knows.2 closing, knows.1, rfl⟩ }
  | receive phase => exact c.gather locks (by rw [phase]; nofun) nofun rfl
  | finish phase none shut =>
    have going : s.collector ≠ .finished := fun finished => by cases phase.symm.trans finished
    exact { locks
            running := c.running
            knows := fun j => (c.knows j).mono rfl rfl id fun _ => rfl
            shut := c.shut
            closed := c.closed
            finished := fun _ => ⟨shut, none⟩
            quiet := fun told => absurd (c.quiet told).1 going }
  | collectorOwns phase => exact c.gather locks (by rw [phase]; nofun) nofun rfl
  | @store x phase =>
    have going : s.collector ≠ .finished := fun finished => by cases phase.symm.trans finished
    have mine : s.owner = some .collector := c.locks.collector.mpr (by rw [phase]; rfl)
    have others (j : ι) : (s.phases j).Knows (({ s with collector := .stored, buffer := s.buffer ++ [x] } : State ι)) := by
      have knows := c.knows j
      cases at_ : s.phases j with
      | handing closes out =>
        have its := (c.locks.owner j).mpr (by rw [at_]; rfl)
        cases mine.symm.trans its
      | wanting closes => exact fun closing => absurd ((at_ ▸ knows : Phase.Knows s (.wanting closes)) closing) going
      | taking closes => exact fun closing => absurd ((at_ ▸ knows : Phase.Knows s (.taking closes)) closing) going
      | _ =>
        rw [at_] at knows
        exact knows
    exact { locks
            running := c.running
            knows := others
            shut := c.shut
            closed := c.closed
            finished := nofun
            quiet := fun told => absurd (c.quiet told).1 going }
  | release phase => exact c.gather locks (by rw [phase]; nofun) nofun rfl

/-! ## Where the reports are -/

/-- The report that a collector has taken out of the channel and not yet put into the buffer. -/
def Collector.held : Collector ι → List (Item ι)
  | holding x | storing x => [x]
  | _ => []

/-- The report that a thread is about to send. -/
def Phase.pending : Phase ι → List Diagnostic
  | sending d => [d]
  | _ => []

/-- All reports that were sent, from those that were handed out to those in the channel. -/
def State.underway (s : State ι) : List (Item ι) :=
  handedOut s.history ++ s.inHand ++ s.buffer ++ s.collector.held ++ s.channel

/-- The accepted reports of every thread are underway, in their order, up to one that it is about to send. -/
def Flows (s : State ι) : Prop :=
  ∀ i, ofSender i s.underway ++ (s.phases i).pending = ofSender i (accepted s.history)

theorem ofSender_append (i : ι) (xs ys : List (Item ι)) : ofSender i (xs ++ ys) = ofSender i xs ++ ofSender i ys := by
  simp [ofSender]

theorem ofSender_single (i j : ι) (d : Diagnostic) : ofSender j [⟨i, d⟩] = if j = i then [d] else [] := by
  by_cases same : j = i
  · simp [ofSender, same]
  · simp [ofSender, same, Ne.symm same]

omit [DecidableEq ι] in
theorem accepted_append (history rest : List (Event ι)) : accepted (history ++ rest) = accepted history ++ accepted rest :=
  List.filterMap_append

omit [DecidableEq ι] in
theorem handedOut_append (history rest : List (Event ι)) :
    handedOut (history ++ rest) = handedOut history ++ handedOut rest :=
  List.flatMap_append

omit [DecidableEq ι] in
theorem underway_congr {s s' : State ι} (inHand : s'.inHand = s.inHand)
    (same : (handedOut s'.history, s'.buffer, s'.collector.held, s'.channel) =
      (handedOut s.history, s.buffer, s.collector.held, s.channel)) : s'.underway = s.underway := by
  simp only [Prod.mk.injEq] at same
  obtain ⟨history, buffer, held, channel⟩ := same
  rw [State.underway, State.underway, history, inHand, buffer, held, channel]

/-- A step that sends and accepts nothing. -/
theorem Flows.pass {s s' : State ι} (flows : Flows s) {i : ι} {p q : Phase ι} (phase : s.phases i = p)
    (phases : s'.phases = (s.set i q).phases) (pending : q.pending = p.pending) (underway : s'.underway = s.underway)
    (told : accepted s'.history = accepted s.history) : Flows s' := by
  intro j
  rw [underway, told, ← flows j, phases, State.set_phases]
  split
  · next own => rw [own, phase, pending]
  · rfl

theorem Flows.same {s s' : State ι} (flows : Flows s) (phases : s'.phases = s.phases) (underway : s'.underway = s.underway)
    (told : s'.history = s.history) : Flows s' := by
  intro j
  rw [underway, told, phases]
  exact flows j

omit [DecidableEq ι] in
/-- A collector that goes on. -/
theorem underway_gather {s s' : State ι} (same : (s'.phases, s'.owner, s'.history) = (s.phases, s.owner, s.history))
    (gathered : s'.buffer ++ s'.collector.held ++ s'.channel = s.buffer ++ s.collector.held ++ s.channel) :
    s'.underway = s.underway := by
  simp only [Prod.mk.injEq] at same
  obtain ⟨phases, owner, history⟩ := same
  have inHand : s'.inHand = s.inHand := by rw [State.inHand, State.inHand, owner, phases]
  simp only [List.append_assoc] at gathered
  simp only [State.underway, history, inHand, List.append_assoc, gathered]

/-- A thread that sends its report on. -/
theorem Flows.sent {s s' : State ι} (flows : Flows s) {i : ι} {d : Diagnostic} (phase : s.phases i = .sending d)
    (phases : s'.phases = (s.set i .leaving).phases) (underway : s'.underway = s.underway ++ [⟨i, d⟩])
    (told : s'.history = s.history) : Flows s' := by
  intro j
  rw [underway, told, ← flows j, phases, State.set_phases, ofSender_append, ofSender_single, List.append_assoc]
  split
  · next own => rw [own, phase]; rfl
  · rfl

theorem Flows.step {s s' : State ι} (flows : Flows s) (c : Consistent s) (step : Step s s') : Flows s' := by
  cases step with
  | @begin i call phase =>
    refine flows.pass phase rfl ?_ (underway_congr (inHand_set phase ?_) rfl) rfl
    · cases call <;> rfl
    · cases call <;> rfl
  | enter phase => exact flows.pass phase rfl rfl (underway_congr (inHand_set phase rfl) rfl) rfl
  | @sawOpen i d phase =>
    intro j
    have underway : ({ s.set i (.sending d) with history := s.history ++ [.saw ⟨i, d⟩ true] } : State ι).underway =
        s.underway :=
      underway_congr (inHand_set phase rfl) (by simp [handedOut, State.set])
    have before := flows j
    rw [underway, accepted_append, ofSender_append, ← before]
    simp only [State.set_phases]
    split
    · next own =>
      rw [own, phase]
      simp [accepted, ofSender, Phase.pending]
    · next other => simp [accepted, ofSender, Ne.symm other]
  | sawClosed phase =>
    exact flows.pass phase rfl rfl (underway_congr (inHand_set phase rfl) (by simp [handedOut, State.set]))
      (by simp [accepted])
  | sendCrash phase => exact flows
  | shutCrash phase => exact flows
  | @send i d phase =>
    refine flows.sent phase rfl ?_ rfl
    change handedOut s.history ++ (s.set i .leaving).inHand ++ s.buffer ++ s.collector.held ++ (s.channel ++ [⟨i, d⟩]) = _
    rw [inHand_set (q := .leaving) phase rfl, ← List.append_assoc]
    rfl
  | @handOver i d phase receiving none =>
    refine flows.sent phase rfl ?_ rfl
    change handedOut s.history ++ (s.set i .leaving).inHand ++ s.buffer ++ [⟨i, d⟩] ++ s.channel = _
    rw [inHand_set (q := .leaving) phase rfl]
    simp [State.underway, receiving, none, Collector.held]
  | leave phase => exact flows.pass phase rfl rfl (underway_congr (inHand_set (q := .idle) phase rfl) rfl) rfl
  | lock phase => exact flows.pass phase rfl rfl (underway_congr (inHand_set (q := .closing) phase rfl) rfl) rfl
  | foundClosed phase => exact flows.pass phase rfl rfl (underway_congr (inHand_set phase rfl) rfl) rfl
  | close phase => exact flows.pass phase rfl rfl (underway_congr (inHand_set (q := .shutting) phase rfl) rfl) rfl
  | shut phase => exact flows.pass phase rfl rfl (underway_congr (inHand_set (q := .unlocking) phase rfl) rfl) rfl
  | unlock phase => exact flows.pass phase rfl rfl (underway_congr (inHand_set (q := .waiting) phase rfl) rfl) rfl
  | wake phase => exact flows.pass phase rfl rfl (underway_congr (inHand_set phase rfl) rfl) rfl
  | own phase free =>
    refine flows.pass (q := .taking _) phase rfl rfl (underway_congr ?_ rfl) rfl
    simp [State.inHand, State.set, free, Phase.out]
  | @take i closes phase =>
    have mine : s.owner = some (.thread i) := (c.locks.owner i).mpr (by rw [phase]; rfl)
    refine flows.pass (q := .handing closes s.buffer) phase rfl rfl ?_ rfl
    simp [State.underway, State.inHand, State.set, mine, phase, Phase.out]
  | @handOut i closes out phase =>
    have mine : s.owner = some (.thread i) := (c.locks.owner i).mpr (by rw [phase]; rfl)
    refine flows.pass (q := .idle) phase rfl rfl ?_ (by simp [accepted])
    simp [State.underway, State.inHand, State.set, mine, phase, Phase.out, handedOut]
  | receive phase some => exact flows.same rfl (underway_gather rfl (by simp [phase, some, Collector.held])) rfl
  | finish phase none => exact flows.same rfl (underway_gather rfl (by simp [phase, Collector.held])) rfl
  | collectorOwns phase free =>
    refine flows.same rfl ?_ rfl
    simp [State.underway, State.inHand, phase, free, Collector.held]
  | store phase => exact flows.same rfl (underway_gather rfl (by simp [phase, Collector.held])) rfl
  | release phase =>
    have mine : s.owner = some .collector := c.locks.collector.mpr (by rw [phase]; rfl)
    refine flows.same rfl ?_ rfl
    simp [State.underway, State.inHand, phase, mine, Collector.held]

/-! ## Runs -/

/-- What every step keeps holds after a schedule. -/
theorem run_keeps {holds : State ι → Prop} (keeps : ∀ {s s'}, holds s → Step s s' → holds s') :
    ∀ {schedule : List (Action ι)} {s s' : State ι}, holds s → s.run schedule = some s' → holds s'
  | [], s, s', start, ran => by
    cases ran
    exact start
  | a :: rest, s, s', start, ran => by
    rw [State.run, List.foldlM_cons, Option.bind_eq_bind, Option.bind_eq_some_iff] at ran
    obtain ⟨middle, first, later⟩ := ran
    exact run_keeps keeps (keeps start (step_cases first)) later

omit [DecidableEq ι] in
theorem consistent_start (capacity : Nat) : Consistent ({ capacity } : State ι) where
  locks := by constructor <;> simp [Phase.isReading, Phase.isWriting, Phase.isOwning, Collector.isOwning]
  running := rfl
  knows _ := trivial
  shut := nofun
  closed := nofun
  finished := nofun
  quiet := nofun

theorem flows_start (capacity : Nat) : Flows ({ capacity } : State ι) := fun _ => rfl

/-- Once a close has returned, nothing is handed out. -/
def Settled (history : List (Event ι)) : Prop :=
  ∀ before rest i out, history = before ++ .returned i true out :: rest → handedOut rest = []

omit [DecidableEq ι] in
theorem hasClosed_of_mem {history : List (Event ι)} {i : ι} {out : List (Item ι)}
    (member : .returned i true out ∈ history) : hasClosed history = true :=
  List.any_eq_true.mpr ⟨_, member, rfl⟩

omit [DecidableEq ι] in
theorem Settled.append {history : List (Event ι)} (settled : Settled history) {e : Event ι}
    (quiet : hasClosed history = true → handedOut [e] = []) : Settled (history ++ [e]) := by
  intro before rest i out split
  obtain rfl | ⟨rest', last, rfl⟩ := List.eq_nil_or_concat rest
  · rfl
  · rw [List.concat_eq_append, ← List.cons_append, ← List.append_assoc] at split
    obtain ⟨earlier, same⟩ := List.append_inj' split rfl
    have closed : hasClosed history = true := by
      rw [earlier]
      exact hasClosed_of_mem (List.mem_append_right before List.mem_cons_self)
    rw [List.concat_eq_append, handedOut_append, settled _ _ _ _ earlier, ← same, quiet closed]
    rfl

theorem Settled.step {s s' : State ι} (settled : Settled s.history) (c : Consistent s) (step : Step s s') :
    Settled s'.history := by
  cases step with
  | sawOpen => exact settled.append fun _ => rfl
  | sawClosed => exact settled.append fun _ => rfl
  | @handOut i closes out phase =>
    have mine : s.owner = some (.thread i) := (c.locks.owner i).mpr (by rw [phase]; rfl)
    refine settled.append fun closed => ?_
    have empty := (c.quiet closed).2.2
    simpa [State.inHand, mine, phase, Phase.out, handedOut] using empty
  | _ => exact settled

/-- What holds of a stream after every schedule. -/
structure Sound (s : State ι) : Prop where
  consistent : Consistent s
  flows : Flows s
  settled : Settled s.history

theorem sound_of_run {capacity : Nat} {schedule : List (Action ι)} {s : State ι}
    (ran : ({ capacity } : State ι).run schedule = some s) : Sound s :=
  run_keeps (fun sound step =>
      ⟨sound.consistent.step step, sound.flows.step sound.consistent step, sound.settled.step sound.consistent step⟩)
    ⟨consistent_start capacity, flows_start capacity, by
      intro before rest i out split
      cases before with
      | nil => cases split
      | cons _ _ => cases split⟩ ran

/-- Once a close has returned, all is handed out that was accepted. -/
theorem Sound.complete {s : State ι} (sound : Sound s) (closed : hasClosed s.history = true) (i : ι) :
    ofSender i (handedOut s.history) = ofSender i (accepted s.history) := by
  have ⟨finished, buffer, inHand⟩ := sound.consistent.quiet closed
  have ⟨shut, channel⟩ := sound.consistent.finished finished
  have underway : s.underway = handedOut s.history := by
    simp [State.underway, inHand, buffer, finished, channel, Collector.held]
  have pending : (s.phases i).pending = [] := by
    cases phase : s.phases i with
    | sending d =>
      have isOpen : Phase.Knows s (.sending d) := phase ▸ sound.consistent.knows i
      cases isOpen.symm.trans (sound.consistent.shut shut)
    | _ => rfl
  rw [← sound.flows i, underway, pending, List.append_nil]

theorem count_ofSender (i : ι) (d : Diagnostic) (xs : List (Item ι)) : (ofSender i xs).count d = xs.count ⟨i, d⟩ := by
  induction xs with
  | nil => rfl
  | cons x xs ih =>
    obtain ⟨j, e⟩ := x
    by_cases sender : j = i
    · by_cases same : e = d
      · simp_all [ofSender]
      · simp_all [ofSender]
    · simp_all [ofSender]

/-! ## Waiting -/

/-- Some thread can go on in its call, or the collector can. -/
def State.CanGoOn (s : State ι) : Prop :=
  (∃ i, (s.move i).isSome) ∨ (∃ i, (s.handOver i).isSome) ∨ s.collect.isSome

theorem Consistent.owner_goes {s : State ι} (c : Consistent s) (owned : s.owner ≠ none) : s.CanGoOn := by
  cases owner : s.owner with
  | none => exact absurd owner owned
  | some holder =>
    cases holder with
    | collector =>
      have owning := c.locks.collector.mp owner
      refine .inr (.inr ?_)
      cases at_ : s.collector with
      | storing x => simp [State.collect, at_]
      | stored => simp [State.collect, at_]
      | _ => simp [at_, Collector.isOwning] at owning
    | thread i =>
      have owning := (c.locks.owner i).mp owner
      refine .inl ⟨i, ?_⟩
      cases at_ : s.phases i with
      | taking closes => simp [State.move, at_]
      | handing closes out => simp [State.move, at_]
      | _ => simp [at_, Phase.isOwning] at owning

theorem Consistent.writer_goes {s : State ι} (c : Consistent s) (written : s.writer ≠ none) : s.CanGoOn := by
  obtain ⟨i, writer⟩ := Option.ne_none_iff_exists'.mp written
  have writing := (c.locks.writer i).mp writer
  refine .inl ⟨i, ?_⟩
  unfold State.move
  cases at_ : s.phases i with
  | closing => cases s.isClosed <;> rfl
  | shutting => cases s.isShut <;> rfl
  | unlocking => rfl
  | _ => simp [at_, Phase.isWriting] at writing

/-- A collector goes on while there is something in the channel, and until it knows that the channel is closed. -/
theorem Consistent.collector_goes {s : State ι} (c : Consistent s) (going : s.collector ≠ .finished)
    (something : s.isShut = true ∨ s.channel ≠ [] ∨ s.collector ≠ .receiving) : s.CanGoOn := by
  by_cases owned : s.owner = none
  · refine .inr (.inr ?_)
    unfold State.collect
    cases at_ : s.collector with
    | receiving =>
      cases channel : s.channel with
      | cons x rest => rfl
      | nil => simpa [channel, at_] using something
    | holding x => simp [owned]
    | storing x => rfl
    | stored => rfl
    | finished => exact absurd at_ going
  · exact c.owner_goes owned

/-- A thread that has looked at the flag goes on, or the collector takes what stands in its way. -/
theorem Consistent.reader_goes {s : State ι} (c : Consistent s) {i : ι} (reading : (s.phases i).isReading = true) :
    s.CanGoOn := by
  cases at_ : s.phases i with
  | testing d => exact .inl ⟨i, by simp [State.move, at_]⟩
  | leaving => exact .inl ⟨i, by simp [State.move, at_]⟩
  | sending d =>
    have isOpen : Phase.Knows s (.sending d) := at_ ▸ c.knows i
    have notShut : s.isShut = false := by
      by_contra shut
      cases isOpen.symm.trans (c.shut (Bool.of_not_eq_false shut))
    have going : s.collector ≠ .finished := fun finished => by cases notShut.symm.trans (c.finished finished).1
    by_cases waits : s.channel = [] ∧ s.collector = .receiving
    · exact .inr (.inl ⟨i, by simp [State.handOver, at_, waits.1, waits.2, notShut]⟩)
    · exact c.collector_goes going (.inr (not_and_or.mp waits))
  | _ => simp [at_, Phase.isReading] at reading

/-- While a thread is in a call, some thread or the collector can go on. -/
theorem Consistent.goes {s : State ι} (c : Consistent s) {i : ι} (busy : s.phases i ≠ .idle) : s.CanGoOn := by
  have writerOr (free : s.writer = none → s.CanGoOn) : s.CanGoOn :=
    (Classical.em (s.writer = none)).elim free c.writer_goes
  cases at_ : s.phases i with
  | idle => exact absurd at_ busy
  | entering d => exact writerOr fun free => .inl ⟨i, by simp [State.move, at_, free]⟩
  | testing d => exact c.reader_goes (i := i) (by rw [at_]; rfl)
  | sending d => exact c.reader_goes (i := i) (by rw [at_]; rfl)
  | leaving => exact c.reader_goes (i := i) (by rw [at_]; rfl)
  | locking =>
    refine writerOr fun free => ?_
    cases readers : s.readers with
    | nil => exact .inl ⟨i, by simp [State.move, at_, free, readers]⟩
    | cons j rest => exact c.reader_goes ((c.locks.readers j).mp (by simp [readers]))
  | closing => exact c.writer_goes (by rw [(c.locks.writer i).mpr (by rw [at_]; rfl)]; nofun)
  | shutting => exact c.writer_goes (by rw [(c.locks.writer i).mpr (by rw [at_]; rfl)]; nofun)
  | unlocking => exact c.writer_goes (by rw [(c.locks.writer i).mpr (by rw [at_]; rfl)]; nofun)
  | waiting =>
    have shut : Phase.Knows s .waiting := at_ ▸ c.knows i
    by_cases finished : s.collector = .finished
    · exact .inl ⟨i, by simp [State.move, at_, finished]⟩
    · exact c.collector_goes finished (.inl shut)
  | wanting closes =>
    by_cases owned : s.owner = none
    · exact .inl ⟨i, by simp [State.move, at_, owned]⟩
    · exact c.owner_goes owned
  | taking closes => exact .inl ⟨i, by simp [State.move, at_]⟩
  | handing closes out => exact .inl ⟨i, by simp [State.move, at_]⟩

/-! ## Streams of one thread -/

/-- Of its own reports, every thread gets what a stream of its own hands out. -/
theorem Sound.own_stream {s : State ι} (sound : Sound s) (closed : hasClosed s.history = true) (i : ι) :
    ofSender i (handedOut s.history) = ((ofSender i (accepted s.history)).foldl Stream.report {}).close.1 := by
  have kept (ds : List Diagnostic) : ∀ waiting, (ds.foldl Stream.report ⟨waiting, false⟩).waiting = waiting ++ ds := by
    induction ds with
    | nil => exact fun waiting => (List.append_nil waiting).symm
    | cons d ds ih =>
      intro waiting
      exact (ih (waiting ++ [d])).trans (by simp)
  rw [sound.complete closed i]
  exact (kept _ []).symm

/-- A shared stream loses and repeats nothing, whatever its capacity, its threads and the schedule: its channel is never
    used after it is closed; what is handed out of a thread's reports is, in their order, a beginning of those that were
    accepted, and once a close has returned exactly those; from then on nothing is handed out; and no thread waits in a
    call forever because all others wait. -/
theorem shared_stream_complete (capacity : Nat) (schedule : List (Action ι)) (s : State ι)
    (ran : ({ capacity } : State ι).run schedule = some s) :
    s.crashed = false ∧
      (∀ i, ofSender i (handedOut s.history) <+: ofSender i (accepted s.history)) ∧
      (hasClosed s.history = true →
        (∀ i, ofSender i (handedOut s.history) = ofSender i (accepted s.history)) ∧
          (handedOut s.history).Perm (accepted s.history)) ∧
      (∀ before rest i out, s.history = before ++ .returned i true out :: rest → handedOut rest = []) ∧
      ∀ i, s.phases i ≠ .idle → s.CanGoOn := by
  have sound := sound_of_run ran
  refine ⟨sound.consistent.running, fun i => ?_, fun closed => ⟨sound.complete closed, ?_⟩, sound.settled,
    fun i busy => sound.consistent.goes busy⟩
  · refine ⟨ofSender i (s.inHand ++ s.buffer ++ s.collector.held ++ s.channel) ++ (s.phases i).pending, ?_⟩
    rw [← sound.flows i, ← List.append_assoc, ← ofSender_append]
    simp only [State.underway, List.append_assoc]
  · rw [List.perm_iff_count]
    intro x
    rw [← count_ofSender, ← count_ofSender, sound.complete closed]

/-- A report hands itself over to the collector of a channel without room while another thread closes the stream; the
    close returns it, and a later report is refused. -/
theorem shared_stream_complete_refused :
    let schedule : List (Action Nat) := [.call 0 (.report default), .move 0, .move 0, .call 1 .close, .handOver 0, .collect,
      .collect, .collect, .move 0, .move 1, .move 1, .move 1, .move 1, .call 0 (.report default), .move 0, .move 0, .move 0,
      .collect, .move 1, .move 1, .move 1, .move 1]
    ∃ s, ({ capacity := 0 } : State Nat).run schedule = some s ∧
      s.history = [.saw ⟨0, default⟩ true, .saw ⟨0, default⟩ false, .returned 1 true [⟨0, default⟩]] ∧
      hasClosed s.history = true ∧ ofSender 0 (handedOut s.history) = ofSender 0 (accepted s.history) := by
  intro schedule
  have ran : ∃ s, ({ capacity := 0 } : State Nat).run schedule = some s ∧
      s.history = [.saw ⟨0, default⟩ true, .saw ⟨0, default⟩ false, .returned 1 true [⟨0, default⟩]] := ⟨_, rfl, rfl⟩
  obtain ⟨s, reached, history⟩ := ran
  have closed : hasClosed s.history = true := by rw [history]; rfl
  exact ⟨s, reached, history, closed, ((shared_stream_complete 0 schedule s reached).2.2.1 closed).1 0⟩

end SharedStream
end PineLang
