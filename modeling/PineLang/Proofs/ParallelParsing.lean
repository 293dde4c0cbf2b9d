import Mathlib.Algebra.Order.BigOperators.Group.Finset
import PineLang.Proofs.DirectoryFiles
import PineLang.Proofs.ParserFaults
import PineLang.Source.Workers

/-!
The files of a directory give the same results in every order in which their workers go on and end
(`parsing_schedule_independent`). What a step can be is said once (`Step`). A worker that is amid its file keeps what
parsing the file alone would give (`Phase.Keeps`): a turn of the loop moves items from what is still to be read to those
that were read. No step of a worker touches what another one keeps, each writes one place of the list of results, and
every step takes away from what is left to do.
-/
namespace PineLang

/-! ## Turns -/

namespace Parser

/-- Puts items before those that are read. -/
def before (more : List Item) (read : Except SyntaxError (List Item × List Lexeme)) :
    Except SyntaxError (List Item × List Lexeme) :=
  read.map fun r => (more ++ r.1, r.2)

@[simp] theorem before_error (more : List Item) (e : SyntaxError) : before more (.error e) = .error e := rfl

@[simp] theorem before_ok (more items : List Item) (rest : List Lexeme) :
    before more (.ok (items, rest)) = .ok (more ++ items, rest) := rfl

@[simp] theorem before_nil (read : Except SyntaxError (List Item × List Lexeme)) : before [] read = read := by
  cases read <;> rfl

theorem before_before (first second : List Item) (read : Except SyntaxError (List Item × List Lexeme)) :
    before first (before second read) = before (first ++ second) read := by
  cases read with
  | error e => rfl
  | ok r => rw [before_ok, before_ok, before_ok, List.append_assoc]

/-- The loop over the items of a file is made of its turns. -/
theorem items_turn (cancelled : Bool) (n : Nat) (ls : List Lexeme) :
    items cancelled (n + 1) ls =
      match turn cancelled n ls with
      | .error e => .error e
      | .ok (none, rest) => .ok ([], rest)
      | .ok (some more, rest) => before more (items cancelled n rest) := by
  rw [items, turn, kind_bind, kind_bind]
  generalize here : look ls = k
  split
  · obtain ⟨l, tail, rfl, _⟩ := cons_of_look here (by decide)
    exact (before_nil _).symm
  · rfl
  · next notLine notEnd =>
    simp only
    cases cancelled with
    | true => rfl
    | false =>
      rw [if_neg Bool.false_ne_true, if_neg Bool.false_ne_true]
      cases read : item n ls with
      | error e => simp only [bind, read]
      | ok r =>
        obtain ⟨⟨i, closed⟩, rest⟩ := r
        rw [bind_of_ok read, bind_of_ok read]
        cases ended : endOfItem closed rest with
        | error e => simp only [bind, ended]
        | ok r =>
          obtain ⟨u, rest'⟩ := r
          simp only [bind_of_ok ended, pure_apply]
          cases others : items false n rest' with
          | error e => simp only [bind, others, before_error]
          | ok r => exact bind_of_ok others _

end Parser

/-- How the items of a file end, if nothing calls its parse off. -/
def SourceFile.itemsRead (f : SourceFile) : Except SyntaxError (List Item × List Lexeme) :=
  let ls := lexemes f.id f.content
  Parser.items false (Parser.depthBound ls.length) ls

theorem SourceFile.parse_eq (f : SourceFile) (limit : Nat) : f.parse limit = f.conclude limit f.itemsRead := by
  unfold parse conclude PineLang.parse itemsRead treeOf
  cases read : Parser.items false (Parser.depthBound (lexemes f.id f.content).length) (lexemes f.id f.content) with
  | error e => simp only [read]
  | ok r =>
    obtain ⟨items, rest⟩ := r
    simp only [read]

/-- A parse that nothing calls off is not called off. -/
theorem SourceFile.itemsRead_fault {f : SourceFile} {e : SyntaxError} (failed : f.itemsRead = .error e) :
    (e.fault == .cancelled) = false := by
  have run : PineLang.parse (lexemes f.id f.content) = .error e := by
    unfold PineLang.parse
    unfold itemsRead at failed
    simp only at failed
    rw [failed]
  have caused := (parse_error run).1
  unfold SyntaxError.Caused at caused
  split at caused
  · next known => rw [known]; rfl
  · exact caused.elim
  · exact caused.elim
  · next known _ => exact beq_eq_false_iff_ne.mpr known

namespace Workers

/-! ## Steps -/

/-- What a step can be while nothing is called off from outside. -/
inductive Step (s : State) : State → Prop
  | start {path : String} {f : SourceFile} (job : s.jobs[s.next]? = some (path, f)) (free : s.busy.length < s.places) :
    Step s { s.set s.next (.reading (Parser.depthBound (lexemes f.id f.content).length) [] (lexemes f.id f.content)) with
      next := s.next + 1, busy := s.next :: s.busy }
  | read {i : Nat} {path : String} {f : SourceFile} {depth : Nat} {items : List Item} {rest : List Lexeme}
    (job : s.jobs[i]? = some (path, f)) (phase : s.phases i = .reading depth items rest) :
    Step s (s.set i (s.read f items rest depth))
  | keep {i : Nat} {path : String} {f : SourceFile} {p : Parsed} (job : s.jobs[i]? = some (path, f))
    (phase : s.phases i = .parsed p) : Step s ((s.set i (.stored p)).store i ⟨⟨path, f, p⟩, none⟩)
  | verify {i : Nat} {path : String} {f : SourceFile} {p : Parsed} (job : s.jobs[i]? = some (path, f))
    (phase : s.phases i = .stored p) :
    Step s ((s.set i .leaving).store i ⟨⟨path, f, p⟩, DirectoryEntry.spanFault? ⟨path, f, p⟩⟩)
  | fail {i : Nat} {path : String} {f : SourceFile} (job : s.jobs[i]? = some (path, f)) (phase : s.phases i = .failed) :
    Step s { s.set i .leaving with isCancelled := true, fault := s.fault.or (some .cancelled) }
  | leave {i : Nat} {path : String} {f : SourceFile} (job : s.jobs[i]? = some (path, f)) (phase : s.phases i = .leaving) :
    Step s { s.set i .ended with busy := s.busy.filter (· ≠ i) }
  | finish (all : s.next = s.jobs.length) (left : s.busy = []) :
    Step s { s with answer := some (match s.fault with
      | some f => .error f
      | none => .ok ((List.range s.jobs.length).map s.results)) }

theorem step_of_move {s s' : State} {i : Nat} (moved : s.move i = some s') : Step s s' := by
  unfold State.move at moved
  split at moved
  · cases moved
  · next path f job =>
    split at moved
    · cases moved
    · cases moved
    · next phase =>
      cases moved
      exact .read job phase
    · next phase =>
      cases moved
      exact .keep job phase
    · next phase =>
      cases moved
      exact .verify job phase
    · next phase =>
      cases moved
      exact .fail job phase
    · next phase =>
      cases moved
      exact .leave job phase

theorem step_cases {s s' : State} {a : Action} (inside : a ≠ .cancel) (moved : s.step a = some s') :
    s.answer = none ∧ Step s s' := by
  unfold State.step at moved
  split at moved
  · cases moved
  · next going =>
    refine ⟨Option.not_isSome_iff_eq_none.mp going, ?_⟩
    cases a with
    | start =>
      simp only [State.start] at moved
      split at moved
      · cases moved
      · next path f job =>
        split at moved <;> cases moved
        next free => exact .start job free
    | move i => exact step_of_move moved
    | finish =>
      simp only [State.finish] at moved
      split at moved <;> cases moved
      next ended => exact .finish ended.1 ended.2
    | cancel => exact absurd rfl inside

/-! ## What a worker keeps -/

/-- An entry with what is wrong with its spans. -/
def checked (e : DirectoryEntry) : Outcome := ⟨e, e.spanFault?⟩

/-- What is in the list for a file at the end: what parsing it alone gives, and what is wrong with the spans. -/
def outcome (limit : Nat) (job : String × SourceFile) : Outcome := checked ⟨job.1, job.2, job.2.parse limit⟩

/-- A worker at this phase gives what parsing its file alone gives: with the items that are still to be read, or in the
    result that it holds or has written. -/
def Phase.Keeps (limit : Nat) (job : String × SourceFile) (written : Option Outcome) : Phase → Prop
  | .idle => True
  | .reading depth items rest => Parser.before items (Parser.items false depth rest) = job.2.itemsRead
  | .parsed p | .stored p => p = job.2.parse limit
  | .failed => False
  | .leaving | .ended => written = some (outcome limit job)

/-- One turn of the loop keeps what the file gives. -/
theorem keeps_read {s : State} {job : String × SourceFile} {written : Option Outcome} {depth : Nat} {items : List Item}
    {rest : List Lexeme} (going : s.isCancelled = false)
    (keeps : (Phase.reading depth items rest).Keeps s.limit job written) :
    (s.read job.2 items rest depth).Keeps s.limit job written := by
  have keeps : Parser.before items (Parser.items false depth rest) = job.2.itemsRead := keeps
  have concluded {read : Except SyntaxError (List Item × List Lexeme)} (same : read = job.2.itemsRead) :
      (Phase.parsed (job.2.conclude s.limit read)).Keeps s.limit job written := by
    show job.2.conclude s.limit read = job.2.parse s.limit
    rw [SourceFile.parse_eq, same]
  cases depth with
  | zero => exact concluded keeps
  | succ depth =>
    rw [Parser.items_turn] at keeps
    rw [State.read, going]
    split
    · next rest' ended =>
      rw [ended] at keeps
      refine concluded ?_
      rw [← keeps, Parser.before_ok, List.append_nil]
    · next more rest' turned =>
      rw [turned] at keeps
      show Parser.before (items ++ more) _ = _
      rw [← keeps, Parser.before_before]
    · next e stopped =>
      rw [stopped, Parser.before_error] at keeps
      rw [SourceFile.itemsRead_fault keeps.symm]
      exact concluded keeps

/-- What holds in every state of a run that is not called off. -/
structure Sound (jobs : List (String × SourceFile)) (limit places : Nat) (s : State) : Prop where
  sameJobs : s.jobs = jobs
  sameLimit : s.limit = limit
  samePlaces : s.places = places
  /-- There is a place for a worker if there is a file. -/
  room : jobs ≠ [] → 0 < places
  started : s.next ≤ jobs.length
  idle : ∀ i, s.phases i = .idle ↔ s.next ≤ i
  busy : ∀ i, i ∈ s.busy ↔ i < s.next ∧ s.phases i ≠ .ended
  going : s.isCancelled = false
  noFault : s.fault = none
  workers : ∀ i job, jobs[i]? = some job → (s.phases i).Keeps limit job (s.results i)
  answer : ∀ a, s.answer = some a → a = .ok (jobs.map fun job => some (outcome limit job))

variable {jobs : List (String × SourceFile)} {limit places : Nat} {s s' : State}

@[simp] theorem set_phases (s : State) (i j : Nat) (p : Phase) :
    (s.set i p).phases j = if j = i then p else s.phases j := rfl

@[simp] theorem store_results (s : State) (i j : Nat) (o : Outcome) :
    (s.store i o).results j = if j = i then some o else s.results j := rfl

namespace Sound

/-- A worker that goes on within its file touches nothing but its phase and its place in the list. -/
theorem pass (sound : Sound jobs limit places s) {i : Nat} {job : String × SourceFile} {q : Phase}
    {results : Nat → Option Outcome} (here : jobs[i]? = some job) (was : s.phases i ≠ .idle ∧ s.phases i ≠ .ended)
    (is : q ≠ .idle ∧ q ≠ .ended) (others : ∀ j, j ≠ i → results j = s.results j)
    (keeps : q.Keeps limit job (results i)) : Sound jobs limit places { s.set i q with results } where
  sameJobs := sound.sameJobs
  sameLimit := sound.sameLimit
  samePlaces := sound.samePlaces
  room := sound.room
  started := sound.started
  idle j := by
    show (if j = i then q else s.phases j) = .idle ↔ s.next ≤ j
    split
    · next same =>
      subst same
      rw [← sound.idle j]
      exact iff_of_false is.1 was.1
    · exact sound.idle j
  busy j := by
    show j ∈ s.busy ↔ j < s.next ∧ (if j = i then q else s.phases j) ≠ .ended
    rw [sound.busy j]
    split
    · next same =>
      subst same
      simp only [was.2, is.2, ne_eq, not_false_eq_true]
    · rfl
  going := sound.going
  noFault := sound.noFault
  workers j job' there := by
    show (if j = i then q else s.phases j).Keeps limit job' (results j)
    split
    · next same =>
      subst same
      rw [here] at there
      cases there
      exact keeps
    · next other =>
      rw [others j other]
      exact sound.workers j job' there
  answer := sound.answer

/-- A worker that leaves gives its place back. -/
theorem leave (sound : Sound jobs limit places s) {i : Nat} (phase : s.phases i = .leaving) :
    Sound jobs limit places { s.set i .ended with busy := s.busy.filter (· ≠ i) } where
  sameJobs := sound.sameJobs
  sameLimit := sound.sameLimit
  samePlaces := sound.samePlaces
  room := sound.room
  started := sound.started
  idle j := by
    show (if j = i then Phase.ended else s.phases j) = .idle ↔ s.next ≤ j
    split
    · next same =>
      subst same
      rw [← sound.idle j, phase]
      exact iff_of_false nofun nofun
    · exact sound.idle j
  busy j := by
    show j ∈ s.busy.filter (· ≠ i) ↔ j < s.next ∧ (if j = i then Phase.ended else s.phases j) ≠ .ended
    rw [List.mem_filter, sound.busy j]
    split
    · next same => simp [same]
    · next other => simp [other]
  going := sound.going
  noFault := sound.noFault
  workers j job there := by
    show (if j = i then Phase.ended else s.phases j).Keeps limit job (s.results j)
    have keeps := sound.workers j job there
    split
    · next same =>
      subst same
      rwa [phase] at keeps
    · exact keeps
  answer := sound.answer

/-- The next file gets a worker, which has everything still to read. -/
theorem start (sound : Sound jobs limit places s) {path : String} {f : SourceFile} (job : jobs[s.next]? = some (path, f)) :
    Sound jobs limit places { s.set s.next
        (.reading (Parser.depthBound (lexemes f.id f.content).length) [] (lexemes f.id f.content)) with
      next := s.next + 1, busy := s.next :: s.busy } where
  sameJobs := sound.sameJobs
  sameLimit := sound.sameLimit
  samePlaces := sound.samePlaces
  room := sound.room
  started := (List.getElem?_eq_some_iff.mp job).1
  idle j := by
    show (if j = s.next then Phase.reading _ _ _ else s.phases j) = .idle ↔ s.next + 1 ≤ j
    split
    · next same =>
      subst same
      exact iff_of_false nofun (Nat.not_succ_le_self _)
    · next other =>
      rw [sound.idle j]
      omega
  busy j := by
    show j ∈ s.next :: s.busy ↔ j < s.next + 1 ∧ (if j = s.next then Phase.reading _ _ _ else s.phases j) ≠ .ended
    rw [List.mem_cons, sound.busy j]
    split
    · next same => simp [same]
    · next other =>
      rw [or_iff_right other, and_congr_left_iff]
      omega
  going := sound.going
  noFault := sound.noFault
  workers j job' there := by
    show (if j = s.next then Phase.reading _ _ _ else s.phases j).Keeps limit job' (s.results j)
    split
    · next same =>
      subst same
      rw [job] at there
      cases there
      exact Parser.before_nil _
    · exact sound.workers j job' there
  answer := sound.answer

/-- When all workers have left, every file has its result in its place. -/
theorem finish (sound : Sound jobs limit places s) (all : s.next = jobs.length) (left : s.busy = []) :
    (List.range jobs.length).map s.results = jobs.map fun job => some (outcome limit job) := by
  refine List.ext_getElem (by simp) ?_
  intro i inside _
  have inside : i < jobs.length := by simpa using inside
  have ended : s.phases i = .ended := by
    by_contra amid
    have member := (sound.busy i).mpr ⟨all ▸ inside, amid⟩
    rw [left] at member
    cases member
  have keeps := sound.workers i jobs[i] (List.getElem?_eq_getElem inside)
  rw [ended] at keeps
  have written : s.results i = some (outcome limit jobs[i]) := keeps
  simpa using written

theorem step (sound : Sound jobs limit places s) (step : Step s s') : Sound jobs limit places s' := by
  cases step with
  | start job free =>
    rw [sound.sameJobs] at job
    exact sound.start job
  | @read i path f depth items rest job phase =>
    rw [sound.sameJobs] at job
    have keeps := sound.workers i _ job
    rw [phase, ← sound.sameLimit] at keeps
    have next := keeps_read sound.going keeps
    rw [sound.sameLimit] at next
    have amid : s.read f items rest depth ≠ .idle ∧ s.read f items rest depth ≠ .ended := by
      unfold State.read
      split
      · simp
      · split
        · simp
        · simp
        · split <;> simp
    exact sound.pass job (by rw [phase]; simp) amid (fun _ _ => rfl) next
  | @keep i path f p job phase =>
    rw [sound.sameJobs] at job
    have keeps := sound.workers i _ job
    rw [phase] at keeps
    exact sound.pass job (by rw [phase]; simp) (by simp) (fun j other => if_neg other) keeps
  | @verify i path f p job phase =>
    rw [sound.sameJobs] at job
    have keeps := sound.workers i _ job
    rw [phase] at keeps
    have same : p = f.parse limit := keeps
    refine sound.pass job (by rw [phase]; simp) (by simp) (fun j other => if_neg other) ?_
    show (if i = i then some _ else s.results i) = some (outcome limit (path, f))
    rw [if_pos rfl, same]
    rfl
  | @fail i path f job phase =>
    rw [sound.sameJobs] at job
    have keeps := sound.workers i _ job
    rw [phase] at keeps
    exact keeps.elim
  | leave job phase => exact sound.leave phase
  | finish all left =>
    rw [sound.sameJobs] at all
    refine { sound with answer := ?_ }
    intro a given
    cases given
    rw [sound.noFault, sound.sameJobs, sound.finish all left]

end Sound

/-! ## Going on -/

/-- While there is no answer, some step is possible. -/
theorem Sound.goes (sound : Sound jobs limit places s) (going : s.answer = none) :
    ∃ a s', a ≠ .cancel ∧ s.step a = some s' := by
  have open_ : ¬ s.answer.isSome := by simp [going]
  by_cases left : s.busy = []
  · by_cases all : s.next = s.jobs.length
    · obtain ⟨s', ended⟩ : ∃ s', s.finish = some s' := ⟨_, if_pos (And.intro all left)⟩
      refine ⟨.finish, s', nofun, ?_⟩
      rw [State.step, if_neg open_]
      exact ended
    · have inside : s.next < s.jobs.length := by
        rw [sound.sameJobs] at all ⊢
        exact Nat.lt_of_le_of_ne sound.started all
      have free : s.busy.length < s.places := by
        have some : jobs ≠ [] := List.ne_nil_of_length_pos (sound.sameJobs ▸ Nat.zero_lt_of_lt inside)
        rw [left, sound.samePlaces]
        exact sound.room some
      obtain ⟨s', started⟩ : ∃ s', s.start = some s' := by
        simp only [State.start, List.getElem?_eq_getElem inside]
        exact ⟨_, if_pos free⟩
      refine ⟨.start, s', nofun, ?_⟩
      rw [State.step, if_neg open_]
      exact started
  · obtain ⟨i, member⟩ := List.exists_mem_of_ne_nil _ left
    obtain ⟨below, amid⟩ := (sound.busy i).mp member
    have inside : i < s.jobs.length := Nat.lt_of_lt_of_le below (sound.sameJobs ▸ sound.started)
    have met : s.phases i ≠ .idle := fun idle => absurd ((sound.idle i).mp idle) (Nat.not_le_of_lt below)
    have moves : (s.move i).isSome := by
      simp only [State.move, List.getElem?_eq_getElem inside]
      cases phase : s.phases i with
      | idle => exact absurd phase met
      | ended => exact absurd phase amid
      | _ => rfl
    obtain ⟨s', moved⟩ := Option.isSome_iff_exists.mp moves
    refine ⟨.move i, s', nofun, ?_⟩
    rw [State.step, if_neg open_]
    exact moved

/-- At most so many steps of a worker are left, where so many turns of the loop are allowed. -/
def Phase.left (turns : Nat) : Phase → Nat
  | .idle => turns + 5
  | .reading depth _ _ => depth + 4
  | .parsed _ => 3
  | .stored _ | .failed => 2
  | .leaving => 1
  | .ended => 0

/-- The turns of the loop that a file is allowed. -/
def turns (job : String × SourceFile) : Nat := Parser.depthBound (lexemes job.2.id job.2.content).length

/-- At most so many steps are left. -/
def State.left (s : State) : Nat :=
  (∑ i : Fin s.jobs.length, (s.phases i).left (turns s.jobs[i])) + if s.answer.isNone then 1 else 0

/-- A worker that goes on has less left to do, and so have all together. -/
theorem left_set {i : Nat} {job : String × SourceFile} {p q : Phase} (here : s.jobs[i]? = some job)
    (phase : s.phases i = p) (less : q.left (turns job) < p.left (turns job)) :
    (∑ j : Fin s.jobs.length, ((s.set i q).phases j).left (turns s.jobs[j])) <
      ∑ j : Fin s.jobs.length, (s.phases j).left (turns s.jobs[j]) := by
  obtain ⟨inside, found⟩ := List.getElem?_eq_some_iff.mp here
  refine Finset.sum_lt_sum ?_ ⟨⟨i, inside⟩, Finset.mem_univ _, ?_⟩
  · intro j _
    rw [set_phases]
    split
    · next same =>
      have job_j : s.jobs[j] = job := by
        rw [← found]
        simp only [Fin.getElem_fin, same]
      rw [job_j, same, phase]
      exact Nat.le_of_lt less
    · exact Nat.le_refl _
  · simp only [set_phases, if_true, Fin.getElem_fin, found, phase]
    exact less

/-- A turn of the loop takes away from what is left. -/
theorem left_read (s : State) (f : SourceFile) (items : List Item) (rest : List Lexeme) (depth turns : Nat) :
    (s.read f items rest depth).left turns < (Phase.reading depth items rest).left turns := by
  unfold State.read
  split
  · exact Nat.lt_succ_self _
  · split
    · show 3 < _ + 1 + 4
      omega
    · exact Nat.lt_succ_self _
    · split
      · show 2 < _ + 1 + 4
        omega
      · show 3 < _ + 1 + 4
        omega

/-- Every step takes away from what is left. -/
theorem Step.less (unstarted : s.phases s.next = .idle) (going : s.answer = none) (step : Step s s') :
    s'.left < s.left := by
  cases step with
  | finish =>
    simp only [State.left, going, Option.isNone_none, if_true]
    exact Nat.lt_succ_self _
  | start job free => exact Nat.add_lt_add_right (left_set job unstarted (Nat.lt_succ_self _)) _
  | read job phase => exact Nat.add_lt_add_right (left_set job phase (left_read ..)) _
  | keep job phase => exact Nat.add_lt_add_right (left_set job phase (Nat.lt_succ_self _)) _
  | verify job phase => exact Nat.add_lt_add_right (left_set job phase (Nat.lt_succ_self _)) _
  | fail job phase => exact Nat.add_lt_add_right (left_set job phase (Nat.lt_succ_self _)) _
  | leave job phase => exact Nat.add_lt_add_right (left_set job phase (Nat.lt_succ_self _)) _

/-! ## Runs -/

/-- After a schedule that does not call off the work, all is sound, and as many steps are gone as it has. -/
theorem run_sound : ∀ {schedule : List Action} {s s' : State}, .cancel ∉ schedule → Sound jobs limit places s →
    s.run schedule = some s' → Sound jobs limit places s' ∧ schedule.length + s'.left ≤ s.left
  | [], s, s', _, sound, ran => by
    cases ran
    exact ⟨sound, (Nat.zero_add _).le⟩
  | a :: rest, s, s', inside, sound, ran => by
    rw [State.run, List.foldlM_cons, Option.bind_eq_bind, Option.bind_eq_some_iff] at ran
    obtain ⟨middle, first, later⟩ := ran
    obtain ⟨other, others⟩ := List.ne_and_not_mem_of_not_mem_cons inside
    obtain ⟨going, step⟩ := step_cases (Ne.symm other) first
    obtain ⟨sound', fewer⟩ := run_sound others (sound.step step) later
    have less := step.less ((sound.idle _).mpr (Nat.le_refl _)) going
    exact ⟨sound', by rw [List.length_cons]; omega⟩

/-- Nothing goes on once there is an answer. -/
theorem run_answered {schedule : List Action} (answered : s.answer.isSome) (ran : s.run schedule = some s') :
    schedule = [] ∧ s' = s := by
  cases schedule with
  | nil => exact ⟨rfl, (Option.some.inj ran).symm⟩
  | cons a rest =>
    rw [State.run, List.foldlM_cons, Option.bind_eq_bind, Option.bind_eq_some_iff] at ran
    obtain ⟨middle, first, _⟩ := ran
    cases first.symm.trans (if_pos answered)

/-- No worker has begun. -/
theorem sound_start (jobs : List (String × SourceFile)) (limit : Nat) {places : Nat} (room : 0 < places) :
    Sound jobs limit places { jobs, limit, places } where
  sameJobs := rfl
  sameLimit := rfl
  samePlaces := rfl
  room _ := room
  started := Nat.zero_le _
  idle i := iff_of_true rfl (Nat.zero_le i)
  busy i := iff_of_false nofun fun below => absurd below.1 (Nat.not_lt_zero i)
  going := rfl
  noFault := rfl
  workers _ _ _ := trivial
  answer := nofun

theorem placesFor_pos {processors : Nat} (processor : 0 < processors) (jobs : Int) {files : Nat} (any : 0 < files) :
    0 < placesFor processors jobs files := by
  refine Nat.lt_min.mpr ⟨?_, any⟩
  split
  · exact processor
  · omega

end Workers

open Workers

/-! ## Directories -/

/-- Either the answer is known before there are workers, or they are about to parse the files that are loaded; both times
    the answer to come is that of parsing the files one by one. -/
theorem Library.dispatch_cases (l : Library) (d : Disk) (dir : String) (limit : Nat) {processors : Nat}
    (processor : 0 < processors) (jobs : Int) :
    (∃ a, l.dispatch d dir limit processors jobs = { answer := some a } ∧
      a = (l.parseDirectory d dir limit).1.map (·.map fun e => some (checked e))) ∨
    ∃ js places, l.dispatch d dir limit processors jobs = { jobs := js, limit, places } ∧ 0 < places ∧
      .ok (js.map fun job => some (outcome limit job)) =
        (l.parseDirectory d dir limit).1.map (·.map fun e => some (checked e)) := by
  unfold dispatch parseDirectory
  cases sourcesBelow d dir with
  | error f => exact .inl ⟨_, rfl, rfl⟩
  | ok paths =>
    cases paths with
    | nil => exact .inl ⟨_, rfl, rfl⟩
    | cons path paths =>
      simp only
      generalize l.loadFiles d (path :: paths) = loaded
      obtain ⟨r, l'⟩ := loaded
      cases r with
      | error f => exact .inl ⟨_, rfl, rfl⟩
      | ok files =>
        refine .inr ⟨_, _, rfl, placesFor_pos processor jobs (Nat.zero_lt_succ _), ?_⟩
        simp only [Bool.false_and, Bool.false_eq_true, if_false, Except.map, List.map_map]
        rfl

/-- Parsing the files of a directory one by one gives an entry for each of them. -/
theorem Library.parseDirectory_ok {l : Library} {d : Disk} {dir : String} {limit : Nat} {entries : List DirectoryEntry}
    (parsed : (l.parseDirectory d dir limit).1 = .ok entries) : ∃ paths files, sourcesBelow d dir = .ok paths ∧
      (l.loadFiles d paths).1 = .ok files ∧ entries = (paths.zip files).map fun x => ⟨x.1, x.2, x.2.parse limit⟩ := by
  unfold parseDirectory at parsed
  cases found : sourcesBelow d dir with
  | error f =>
    rw [found] at parsed
    cases parsed
  | ok paths =>
    rw [found] at parsed
    simp only at parsed
    generalize loaded : l.loadFiles d paths = r at parsed
    obtain ⟨r, l'⟩ := r
    cases r with
    | error f => cases parsed
    | ok files =>
      simp only [Bool.false_and, Bool.false_eq_true, if_false, Except.ok.injEq] at parsed
      exact ⟨paths, files, rfl, by rw [loaded], parsed.symm⟩

/-- What parsing the files one by one gives: an entry for every source file below the directory, once and in the order of
    the paths, with what parsing that file alone gives. In a library that was given no content of its own, the file is the
    one that a new library loads from its path, but for its number. -/
theorem Library.parseDirectory_spec {l : Library} {d : Disk} {dir : String} {limit : Nat}
    {entries : List DirectoryEntry} (parsed : (l.parseDirectory d dir limit).1 = .ok entries) :
    (∃ loc e, d.find dir = .ok (loc, e) ∧ (entries.map (·.path)).Pairwise (· ≤ ·) ∧
      (entries.map (·.path)).Perm ((d.pathsAt dir loc e).filter (·.endsWith sourceExt))) ∧
    (∀ e ∈ entries, e.parsed = e.file.parse limit) ∧
    (l.Sound d.read → l.files.AllNamed →
      ∀ e ∈ entries, (Library.empty.loadFile d e.path).1 = .ok { e.file with id := 0 }) := by
  obtain ⟨paths, files, found, loaded, rfl⟩ := parseDirectory_ok parsed
  have same : ((paths.zip files).map fun x => (⟨x.1, x.2, x.2.parse limit⟩ : DirectoryEntry)).map (·.path) = paths := by
    rw [List.map_map]
    exact List.map_fst_zip (length_loadFiles loaded).ge
  refine ⟨?_, ?_, ?_⟩
  · rw [same]
    exact sourcesBelow_spec found
  · intro e member
    obtain ⟨x, _, rfl⟩ := List.mem_map.mp member
    rfl
  · intro sound named e member
    obtain ⟨x, inside, rfl⟩ := List.mem_map.mp member
    exact List.forall₂_zip (loadFiles_alone sound named loaded) inside

/-- The files of a directory give the same results in every order in which their workers go on and end, however many
    there are at once. The answer is that of parsing the files one by one: for every source file below the directory, once
    and in the order of the paths, what parsing it alone gives and what is wrong with its spans. As long as there is no
    answer, some step is possible, and no schedule is longer than what was left to do at first. -/
theorem parsing_schedule_independent (l : Library) (d : Disk) (dir : String) (limit processors : Nat) (jobs : Int)
    (processor : 0 < processors) (schedule : List Action) (s : State)
    (ran : (l.dispatch d dir limit processors jobs).run schedule = some s) (uncancelled : .cancel ∉ schedule) :
    (∀ a, s.answer = some a → a = (l.parseDirectory d dir limit).1.map (·.map fun e => some ⟨e, e.spanFault?⟩)) ∧
    (s.answer = none → ∃ a s', a ≠ .cancel ∧ s.step a = some s') ∧
    schedule.length ≤ (l.dispatch d dir limit processors jobs).left ∧
    ∀ entries, (l.parseDirectory d dir limit).1 = .ok entries →
      (∃ loc e, d.find dir = .ok (loc, e) ∧ (entries.map (·.path)).Pairwise (· ≤ ·) ∧
        (entries.map (·.path)).Perm ((d.pathsAt dir loc e).filter (·.endsWith sourceExt))) ∧
      (∀ e ∈ entries, e.parsed = e.file.parse limit) ∧
      (l.Sound d.read → l.files.AllNamed →
        ∀ e ∈ entries, (Library.empty.loadFile d e.path).1 = .ok { e.file with id := 0 }) := by
  rcases l.dispatch_cases d dir limit processor jobs with ⟨a, start, known⟩ | ⟨js, places, start, room, known⟩
  · rw [start] at ran ⊢
    obtain ⟨rfl, rfl⟩ := run_answered rfl ran
    refine ⟨?_, nofun, Nat.zero_le _, fun entries => Library.parseDirectory_spec⟩
    intro b given
    cases given
    exact known
  · rw [start] at ran ⊢
    obtain ⟨sound, fewer⟩ := run_sound uncancelled (sound_start js limit room) ran
    refine ⟨?_, sound.goes, Nat.le_trans (Nat.le_add_right _ _) fewer, fun entries => Library.parseDirectory_spec⟩
    intro a given
    exact (sound.answer a given).trans known

/-- The second of two files is done before the first. -/
theorem parsing_schedule_independent_last_first :
    let d : Disk := ⟨[(["src"], .dir), (["src", "a.pn"], .file [] false), (["src", "b.pn"], .file [] false),
      (["src", "notes"], .file [] false)], []⟩
    let schedule : List Action := [.start, .start, .move 1, .move 0, .move 1, .move 1, .move 1, .move 0, .move 0, .move 0,
      .finish]
    .cancel ∉ schedule ∧ ∃ s entries, (Library.empty.dispatch d "src" 5 2 0).run schedule = some s ∧
      (Library.empty.parseDirectory d "src" 5).1 = .ok entries ∧ entries.map (·.path) = ["src/a.pn", "src/b.pn"] ∧
      s.answer = some (.ok (entries.map fun e => some ⟨e, e.spanFault?⟩)) ∧
      ∀ e ∈ entries, (Library.empty.loadFile d e.path).1 = .ok { e.file with id := 0 } := by
  intro d schedule
  have uncancelled : .cancel ∉ schedule := by decide
  have below : d.filesBelow ["src"] = [(["a.pn"], []), (["b.pn"], []), (["notes"], [])] :=
    List.mergeSort_of_pairwise (by decide)
  have found : sourcesBelow d "src" = .ok ["src/a.pn", "src/b.pn"] := by
    have here : d.find "src" = .ok (["src"], .dir) := by decide
    have named : ((d.filesBelow ["src"]).map fun f => Path.join ("src" :: f.1)).filter (·.endsWith sourceExt) =
        ["src/a.pn", "src/b.pn"] := by
      rw [below]
      decide +kernel
    rw [sourcesBelow, here]
    simp only [named]
    exact congrArg Except.ok (List.mergeSort_of_pairwise (by decide))
  have parsed : ((Library.empty.parseDirectory d "src" 5).1.map (·.map (·.path))) = .ok ["src/a.pn", "src/b.pn"] := by
    rw [Library.parseDirectory, found]
    decide
  have ran : ((Library.empty.dispatch d "src" 5 2 0).run schedule).map (·.answer.isSome) = some true := by
    rw [Library.dispatch, found]
    decide
  obtain ⟨s, reached, answered⟩ := Option.map_eq_some_iff.mp ran
  obtain ⟨a, given⟩ := Option.isSome_iff_exists.mp answered
  have known := parsing_schedule_independent Library.empty d "src" 5 2 0 (by decide) schedule s reached uncancelled
  have same := known.1 a given
  cases sequential : (Library.empty.parseDirectory d "src" 5).1 with
  | error f =>
    rw [sequential] at parsed
    cases parsed
  | ok entries =>
    rw [sequential] at same parsed
    refine ⟨uncancelled, s, entries, reached, rfl, Except.ok.inj parsed, given.trans (congrArg some same), ?_⟩
    exact (known.2.2.2 entries sequential).2.2 (CachedLibrary.ofFiles_sound {} 0) nofun
end PineLang
