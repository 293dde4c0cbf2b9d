import PineLang.Syntax.Descent
import PineLang.Proofs.Plans
import PineLang.Proofs.ParserFaults

/-!
A parse of a source that ends somewhere. It stops, with what the parser makes of the list of the lexemes; it calls the
source at most once for each lexeme up to the end; and no production is entered inside itself before a token was taken
(`parse_stops`).
-/
namespace PineLang

/-! ## Windows -/

namespace Window

variable {s : LexemeSource} {stop : Nat} {w : Window} {ls : List Lexeme}

/-- The source was not called behind its end, and where it was called for its end, that is in sight. -/
def Within (stop : Nat) (before : Lexeme) (calls : Nat) : Prop :=
  calls ≤ stop ∨ calls = stop + 1 ∧ Lexer.isEnd before = true

theorem Within.calls_le {before : Lexeme} {calls : Nat} (within : Within stop before calls) : calls ≤ stop + 1 := by
  rcases within with early | ⟨last, _⟩ <;> omega

theorem pull_within (ends : s.EndsAt stop) {before : Lexeme} {calls : Nat} (last : Span)
    (within : Within stop before calls) : Within stop (pull s before calls last).1 (pull s before calls last).2 := by
  unfold pull
  split
  · exact within
  · next going =>
    have early : calls ≤ stop := within.resolve_right fun atEnd => going atEnd.2
    by_cases final : calls = stop
    · refine .inr ⟨congrArg (· + 1) final, ?_⟩
      subst final
      cases answer : s calls with
      | none => rfl
      | some l => exact ends l answer
    · exact .inl (by omega)

theorem ofSource_current_within (ends : s.EndsAt stop) : Within stop (ofSource s).current 1 := by
  have opening : Within stop (.token ⟨.invalid, {}, "", .none⟩) 0 := .inl (Nat.zero_le stop)
  exact pull_within ends {} opening

theorem ofSource_within (ends : s.EndsAt stop) : Within stop (ofSource s).next (ofSource s).calls :=
  pull_within ends {} (ofSource_current_within ends)

theorem advance_within (ends : s.EndsAt stop) (within : Within stop w.next w.calls) :
    Within stop (w.advance s).next (w.advance s).calls := by
  unfold advance
  split
  · exact within
  · exact pull_within ends _ within

/-- A lexeme behind one that is not the end takes a call. -/
theorem pull_calls {before : Lexeme} (going : Lexer.isEnd before = false) (calls : Nat) (last : Span) :
    (pull s before calls last).2 = calls + 1 := by
  simp [pull, going]

theorem advance_taken (going : Lexer.isEnd w.current = false) : (w.advance s).taken = w.taken + 1 := by
  simp [advance, going]

theorem advance_current (going : Lexer.isEnd w.current = false) : (w.advance s).current = w.next := by
  simp [advance, going]

theorem advance_calls (going : Lexer.isEnd w.current = false) (more : Lexer.isEnd w.next = false) :
    (w.advance s).calls = w.calls + 1 := by
  simp [advance, going, pull_calls more]

/-- These are the lexemes that are seen when all are taken, up to the end. -/
def Shows (s : LexemeSource) : List Lexeme → Window → Prop
  | [], _ => False
  | l :: ls, w => w.current = l ∧ if Lexer.isEnd l then ls = [] else Shows s ls (w.advance s)

theorem Shows.cons (seen : Shows s ls w) : ∃ rest, ls = w.current :: rest := by
  cases ls with
  | nil => exact seen.elim
  | cons l rest => exact ⟨rest, by rw [seen.1]⟩

theorem Shows.advance {l : Lexeme} {rest : List Lexeme} (seen : Shows s (l :: rest) w) (going : Lexer.isEnd l = false) :
    Shows s rest (w.advance s) := by
  simpa only [going, Bool.false_eq_true, if_false] using seen.2

/-- How many lexemes there are at most from a window on. -/
def room (stop : Nat) (w : Window) : Nat :=
  if Lexer.isEnd w.current then 1 else if Lexer.isEnd w.next then 2 else stop + 3 - w.calls

theorem ahead_shows (ends : s.EndsAt stop) : ∀ {count : Nat} {w : Window}, Within stop w.next w.calls →
    w.room stop ≤ count → Shows s (w.ahead s count) w
  | 0, w, within, enough => by
    have early := within.calls_le
    unfold room at enough
    split at enough
    · omega
    · split at enough <;> omega
  | count + 1, w, within, enough => by
    refine ⟨rfl, ?_⟩
    cases going : Lexer.isEnd w.current with
    | true => rfl
    | false =>
      refine ahead_shows ends (advance_within ends within) ?_
      simp only [room, going, advance_current going, Bool.false_eq_true, if_false] at enough ⊢
      cases more : Lexer.isEnd w.next with
      | true =>
        simp only [more, if_true] at enough ⊢
        omega
      | false =>
        have early : w.calls ≤ stop := within.resolve_right fun atEnd => absurd atEnd.2 (by rw [more]; decide)
        simp only [more, advance_calls going more, Bool.false_eq_true, if_false] at enough ⊢
        split <;> omega

theorem ofSource_calls (going : Lexer.isEnd (ofSource s).current = false) : (ofSource s).calls = 2 :=
  pull_calls going 1 {}

theorem ofSource_shows (ends : s.EndsAt stop) : Shows s (s.lexemes stop) (ofSource s) := by
  refine ahead_shows ends (ofSource_within ends) ?_
  unfold room
  cases going : Lexer.isEnd (ofSource s).current with
  | true =>
    simp only [if_true]
    omega
  | false =>
    have early : 1 ≤ stop := (ofSource_current_within ends).resolve_right fun atEnd => absurd atEnd.2 (by rw [going]; decide)
    simp only [ofSource_calls going, Bool.false_eq_true, if_false]
    split <;> omega

end Window

/-! ## What holds along a parse -/

namespace Plan.Known

/-- The current lexeme has the kind that is known, if one is. -/
def Looked (known : Known) (w : Window) : Prop := ∀ k, known.kind = some k → w.current.kind = k

theorem looked_none (w : Window) (moved : Bool) : (⟨none, moved⟩ : Known).Looked w := fun _ unknown => absurd unknown nofun

theorem looked_current (w : Window) (moved : Bool) : (⟨some w.current.kind, moved⟩ : Known).Looked w :=
  fun _ same => Option.some.inj same

theorem Looked.atEntry {known : Known} {w : Window} {q : Production} (looked : known.Looked w)
    (atIf : q = .conditional → known.kind = some .kwIf) : (Known.atEntry q).Looked w := by
  intro k same
  by_cases isCond : q = .conditional
  · cases (if_pos isCond).symm.trans same
    exact looked _ (atIf isCond)
  · cases (if_neg isCond).symm.trans same

/-- A token of a known kind is not the end. -/
theorem Looked.going {known : Known} {w : Window} (looked : known.Looked w)
    (inside : ∃ k, known.kind = some k ∧ k ≠ .eof ∧ k ≠ .invalid) : Lexer.isEnd w.current = false := by
  obtain ⟨k, isKind, notEnd, _⟩ := inside
  have here : w.current.toToken.kind = k := looked k isKind
  exact beq_eq_false_iff_ne.mpr (here ▸ notEnd)

/-- What is known of the current lexeme and of the tokens taken since the production was entered. -/
structure Holds (known : Known) (entered : Nat) (w : Window) : Prop where
  looked : known.Looked w
  since : entered ≤ w.taken
  moved : known.moved = true → entered < w.taken

end Plan.Known

/-- A production that is done has taken a token if it says so. -/
def Production.Kept (p : Production) {α : Type} (_ : α) (known : Plan.Known) : Prop := p.takes = true → known.moved = true

namespace Stack

/-- Each production on the stack was entered behind a token that the one below took, or has a lower rank; and what is
    left of the one below makes progress. -/
def Sound : {q : Production} → Stack q → Prop
  | _, root _ => True
  | q, @push p _ entered next below =>
    ∃ moved : Bool, (moved = true ∨ q.rank < p.rank) ∧ (moved = true → below.entered < entered) ∧ below.entered ≤ entered ∧
      (∀ a, Plan.Paced p.rank ⟨none, moved || q.takes⟩ (next a) p.Kept) ∧ below.Sound

/-- A production is entered later than another, or with a lower rank. -/
def Deeper (inner outer : Production × Nat) : Prop :=
  outer.2 < inner.2 ∨ outer.2 ≤ inner.2 ∧ inner.1.rank < outer.1.rank

theorem Deeper.trans {a b c : Production × Nat} (upper : Deeper a b) (lower : Deeper b c) : Deeper a c := by
  unfold Deeper at *
  omega

theorem entries_cons {q : Production} (stack : Stack q) : ∃ below, stack.entries = (q, stack.entered) :: below := by
  cases stack with
  | root n => exact ⟨[], rfl⟩
  | push n next below => exact ⟨below.entries, rfl⟩

theorem Sound.deeper {q : Production} {stack : Stack q} (sound : stack.Sound) : stack.entries.Pairwise Deeper := by
  induction stack with
  | root n => exact List.pairwise_singleton _ _
  | @push p q entered next below ih =>
    obtain ⟨moved, less, later, since, -, belowSound⟩ := sound
    have pairs := ih belowSound
    have above : Deeper (q, entered) (p, below.entered) := by
      rcases less with isMoved | lower
      · exact .inl (later isMoved)
      · exact .inr ⟨since, lower⟩
    obtain ⟨tail, isCons⟩ := below.entries_cons
    refine List.pairwise_cons.mpr ⟨fun e member => ?_, pairs⟩
    rw [isCons] at member pairs
    rcases List.mem_cons.mp member with rfl | inTail
    · exact above
    · exact above.trans (List.rel_of_pairwise_cons pairs inTail)

end Stack

namespace Descent

variable {s : LexemeSource} {stop : Nat}

/-- The source was not called behind its end; the plan that runs makes progress, and so do those that wait. -/
def Sound (stop : Nat) : Descent → Prop
  | @running p stack plan w => Window.Within stop w.next w.calls ∧ stack.Sound ∧
      ∃ known, known.Holds stack.entered w ∧ Plan.Paced p.rank known plan p.Kept
  | finished _ w | failed _ w => Window.Within stop w.next w.calls

theorem start_sound (ends : s.EndsAt stop) (cancelled : Bool) : (start s cancelled).Sound stop :=
  ⟨Window.ofSource_within ends, trivial, .atEntry .items, ⟨Plan.Known.looked_none _ _, Nat.zero_le _, nofun⟩,
    Plan.items_paced cancelled⟩

theorem step_sound (ends : s.EndsAt stop) {d : Descent} (sound : d.Sound stop) : (d.step s).Sound stop := by
  cases d with
  | finished items w => exact sound
  | failed fault w => exact sound
  | @running p stack plan w =>
    obtain ⟨within, stackSound, known, holds, paced⟩ := sound
    cases plan with
    | stop fault => exact within
    | look next =>
      exact ⟨within, stackSound, _, ⟨Plan.Known.looked_current w _, holds.since, holds.moved⟩, paced w.current⟩
    | take next =>
      obtain ⟨inside, paced⟩ := paced
      have more : stack.entered < (w.advance s).taken := by
        rw [Window.advance_taken (holds.looked.going inside)]
        exact Nat.lt_succ_of_le holds.since
      exact ⟨Window.advance_within ends within, stackSound, _,
        ⟨Plan.Known.looked_none _ _, Nat.le_of_lt more, fun _ => more⟩, paced _⟩
    | enter q x next =>
      obtain ⟨less, atIf, paced⟩ := paced
      exact ⟨within, ⟨known.moved, less, holds.moved, holds.since, paced, stackSound⟩, _,
        ⟨holds.looked.atEntry atIf, Nat.le_refl _, nofun⟩, q.plan_paced x⟩
    | done a =>
      cases stack with
      | root n => exact within
      | push entered next below =>
        obtain ⟨moved, less, later, since, rest, belowSound⟩ := stackSound
        refine ⟨within, belowSound, _,
          ⟨Plan.Known.looked_none _ _, Nat.le_trans since holds.since, fun further => ?_⟩, rest a⟩
        rcases Bool.or_eq_true_iff.mp further with isMoved | takes
        · exact Nat.lt_of_lt_of_le (later isMoved) holds.since
        · exact Nat.lt_of_le_of_lt since (holds.moved (paced takes))

theorem after_sound (ends : s.EndsAt stop) (steps : Nat) {d : Descent} (sound : d.Sound stop) :
    (d.after s steps).Sound stop := by
  induction steps generalizing d with
  | zero => exact sound
  | succ steps ih => exact ih (step_sound ends sound)

/-! ## The parse of the list -/

/-- The parse gets from one state to another. -/
def Reaches (s : LexemeSource) (d e : Descent) : Prop := ∃ steps, d.after s steps = e

theorem Reaches.refl (d : Descent) : Reaches s d d := ⟨0, rfl⟩

theorem Reaches.head {d e : Descent} (reaches : Reaches s (d.step s) e) : Reaches s d e :=
  let ⟨steps, same⟩ := reaches
  ⟨steps + 1, same⟩

theorem Reaches.trans {d e f : Descent} (first : Reaches s d e) (second : Reaches s e f) : Reaches s d f := by
  obtain ⟨steps, same⟩ := first
  induction steps generalizing d with
  | zero =>
    cases same
    exact second
  | succ steps ih => exact (ih same).head

/-- What a parse comes to where the list of the lexemes gives this; a bound on the depth is not its own. -/
def ComesTo (s : LexemeSource) {p : Production} (stack : Stack p) (plan : Plan p.Output) (w : Window) :
    Except SyntaxError (p.Output × List Lexeme) → Prop
  | .ok (a, rest) => ∃ w', w'.Shows s rest ∧ Reaches s (running stack plan w) (running stack (.done a) w')
  | .error e => e.fault ≠ .exhausted → ∃ w', Reaches s (running stack plan w) (failed e.fault w')

theorem ComesTo.head {p : Production} {stack : Stack p} {plan plan' : Plan p.Output} {w w' : Window}
    {r : Except SyntaxError (p.Output × List Lexeme)} (comes : ComesTo s stack plan' w' r)
    (reaches : Reaches s (running stack plan w) (running stack plan' w')) : ComesTo s stack plan w r := by
  cases r with
  | ok r =>
    obtain ⟨last, seen, further⟩ := comes
    exact ⟨last, seen, reaches.trans further⟩
  | error e =>
    intro bounded
    obtain ⟨last, further⟩ := comes bounded
    exact ⟨last, reaches.trans further⟩

theorem comesTo_plan {run : (q : Production) → q.Input → Parser q.Output}
    (runs : ∀ (q : Production) (x : q.Input) (stack : Stack q) {w : Window} {ls : List Lexeme},
      (Plan.Known.atEntry q).Looked w → w.Shows s ls → ComesTo s stack (q.plan x) w (run q x ls))
    {p : Production} (stack : Stack p) {rank : Nat} (plan : Plan p.Output) :
    ∀ {known : Plan.Known} {w : Window} {ls : List Lexeme} {post : p.Output → Plan.Known → Prop},
      plan.Paced rank known post → known.Looked w → w.Shows s ls → ComesTo s stack plan w (plan.read run ls) := by
  induction plan with
  | done a => exact fun _ _ seen => ⟨_, seen, .refl _⟩
  | stop fault => exact fun _ _ _ _ => ⟨_, .head (.refl _)⟩
  | look next ih =>
    intro known w ls post paced _ seen
    obtain ⟨rest, rfl⟩ := seen.cons
    have comes := ih w.current (paced w.current) (Plan.Known.looked_current w _) seen
    exact comes.head (.head (.refl _))
  | take next ih =>
    intro known w ls post paced looked seen
    obtain ⟨inside, paced⟩ := paced
    obtain ⟨rest, rfl⟩ := seen.cons
    have comes := ih w.current.toToken (paced _) (Plan.Known.looked_none _ _) (seen.advance (looked.going inside))
    exact comes.head (.head (.refl _))
  | enter q x next ih =>
    intro known w ls post paced looked seen
    obtain ⟨-, atIf, paced⟩ := paced
    have inner := runs q x (.push w.taken next stack) (looked.atEntry atIf) seen
    have enters : Reaches s (running stack (.enter q x next) w) (running (.push w.taken next stack) (q.plan x) w) :=
      .head (.refl _)
    show ComesTo s stack _ w ((run q x >>= fun a => (next a).read run) ls)
    cases result : run q x ls with
    | error e =>
      rw [result] at inner
      have stopped : (run q x >>= fun a => (next a).read run) ls = .error e := by simp only [bind, result]
      rw [stopped]
      intro bounded
      obtain ⟨last, further⟩ := inner bounded
      exact ⟨last, enters.trans further⟩
    | ok r =>
      obtain ⟨a, mid⟩ := r
      rw [result] at inner
      obtain ⟨w', seen', further⟩ := inner
      rw [Parser.bind_of_ok result]
      have comes := ih a (paced a) (Plan.Known.looked_none _ _) seen'
      have leaves : Reaches s (running (.push w.taken next stack) (.done a) w') (running stack (next a) w') := .head (.refl _)
      exact comes.head (enters.trans (further.trans leaves))

theorem comesTo (n : Nat) (q : Production) (x : q.Input) (stack : Stack q) {w : Window} {ls : List Lexeme}
    (looked : (Plan.Known.atEntry q).Looked w) (seen : w.Shows s ls) :
    ComesTo s stack (q.plan x) w (Parser.production n q x ls) := by
  induction n generalizing q w ls with
  | zero =>
    rw [Parser.production_zero]
    exact fun bounded => absurd rfl bounded
  | succ n ih =>
    rw [← Production.read_plan]
    exact comesTo_plan (fun q x stack _ _ looked seen => ih q x stack looked seen) stack _ (q.plan_paced x) looked seen

theorem cancelled_bounded : ∀ {n : Nat} {ls : List Lexeme} {e : SyntaxError}, ls.length < n →
    Parser.items true n ls = .error e → e.fault ≠ .exhausted
  | n + 1, ls, e, room, stopped => by
    rw [Parser.items, Parser.kind_bind] at stopped
    generalize here : Parser.look ls = k at stopped
    split at stopped
    · obtain ⟨l, rest, rfl, _⟩ := Parser.cons_of_look here (by decide)
      exact cancelled_bounded (Nat.lt_of_succ_lt_succ room) stopped
    · cases stopped
    · cases stopped
      intro exhausted
      cases exhausted

/-- The bound on the depth is not to blame for a fault, also where the parse is cancelled. -/
theorem items_bounded (cancelled : Bool) (ls : List Lexeme) {e : SyntaxError}
    (stopped : Parser.items cancelled (Parser.depthBound ls.length) ls = .error e) : e.fault ≠ .exhausted := by
  have room : 16 * ls.length + 1 ≤ Parser.depthBound ls.length := by
    unfold Parser.depthBound
    omega
  cases cancelled with
  | false =>
    have caused := ((Parser.items_honest room).error stopped).1
    intro exhausted
    rw [SyntaxError.Caused, exhausted] at caused
    exact caused
  | true => exact cancelled_bounded (by omega) stopped

/-- A parse of a source that ends stops, with what the parser makes of the list of the lexemes. -/
theorem stops (ends : s.EndsAt stop) (cancelled : Bool) :
    ∃ steps, ((start s cancelled).after s steps).outcome? (Window.ofSource s).current.toToken.span =
      some ((parse (s.lexemes stop) cancelled).mapError (·.fault)) := by
  have seen := Window.ofSource_shows ends
  have comes := comesTo (Parser.depthBound (s.lexemes stop).length) .items cancelled (.root 0)
    (Plan.Known.looked_none _ _) seen
  unfold parse
  simp only [Parser.production] at comes
  cases result : Parser.items cancelled (Parser.depthBound (s.lexemes stop).length) (s.lexemes stop) with
  | error e =>
    rw [result] at comes
    obtain ⟨w, steps, same⟩ := comes (items_bounded cancelled _ result)
    exact ⟨steps, congrArg (outcome? _) same⟩
  | ok r =>
    obtain ⟨items, rest⟩ := r
    rw [result] at comes
    obtain ⟨w, seen', reaches⟩ := comes
    have closes : Reaches s (running (.root 0) (.done items) w) (finished items w) := .head (.refl _)
    obtain ⟨steps, same⟩ := reaches.trans closes
    refine ⟨steps, (congrArg (outcome? _) same).trans ?_⟩
    obtain ⟨tail, first⟩ := seen.cons
    obtain ⟨tail', last⟩ := seen'.cons
    rw [first, last]
    rfl

/-- A production that stands on the stack twice was entered again behind a token that was taken since. -/
theorem Sound.reentered {d : Descent} (sound : d.Sound stop) :
    d.entries.Pairwise fun inner outer => inner.1 = outer.1 → outer.2 < inner.2 := by
  cases d with
  | finished items w => exact .nil
  | failed fault w => exact .nil
  | running stack plan w =>
    refine sound.2.1.deeper.imp fun {inner outer} deeper same => ?_
    rcases deeper with later | ⟨_, lower⟩
    · exact later
    · exact absurd (same ▸ lower) (Nat.lt_irrefl _)

theorem Sound.calls_le {d : Descent} (sound : d.Sound stop) : d.window.calls ≤ stop + 1 := by
  cases d with
  | running stack plan w => exact sound.1.calls_le
  | finished items w => exact Window.Within.calls_le sound
  | failed fault w => exact Window.Within.calls_le sound

end Descent

/-- A parse stops, whatever its source gives before it ends, with what the parser makes of the list of the lexemes. On the
    way the source is called at most once for each lexeme up to its end, and no production stands on the stack twice
    without a token taken in between: none that is entered again inside itself, and none that is the next turn of a
    loop. -/
theorem parse_stops {s : LexemeSource} {stop : Nat} (ends : s.EndsAt stop) (cancelled : Bool) :
    (∃ steps, ((Descent.start s cancelled).after s steps).outcome? (Window.ofSource s).current.toToken.span =
      some ((parse (s.lexemes stop) cancelled).mapError (·.fault))) ∧
    ∀ steps, ((Descent.start s cancelled).after s steps).window.calls ≤ stop + 1 ∧
      ((Descent.start s cancelled).after s steps).entries.Pairwise fun inner outer =>
        inner.1 = outer.1 → outer.2 < inner.2 := by
  refine ⟨Descent.stops ends cancelled, fun steps => ?_⟩
  have sound := Descent.after_sound ends steps (Descent.start_sound ends cancelled)
  exact ⟨sound.calls_le, sound.reentered⟩

/-- A source with a character of no token and an uneven indentation, and then nothing more. -/
def garbled : LexemeSource
  | 0 => some (.token ⟨.invalid, {}, "$", .none⟩)
  | 1 => some (.error ⟨.unevenIndent 3, {}⟩)
  | _ => none

theorem parse_stops_garbled : garbled.EndsAt 2 ∧
    (∃ steps, ((Descent.start garbled false).after garbled steps).outcome? (Window.ofSource garbled).current.toToken.span =
      some ((parse (garbled.lexemes 2) false).mapError (·.fault))) ∧
    ∀ steps, ((Descent.start garbled false).after garbled steps).window.calls ≤ 3 ∧
      ((Descent.start garbled false).after garbled steps).entries.Pairwise fun inner outer =>
        inner.1 = outer.1 → outer.2 < inner.2 := by
  have ends : garbled.EndsAt 2 := fun _ answer => nomatch answer
  exact ⟨ends, parse_stops ends false⟩

end PineLang
