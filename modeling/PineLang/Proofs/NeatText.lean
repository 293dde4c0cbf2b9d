import PineLang.Proofs.TokenStream

/-!
Neat text. Where `pieces` finds no fault, the lexemes stand in the text as their kinds are spelled,
with nothing but spaces between them, and empty lines behind a line break (`lexemes_neat`). So what
the printer looks for in the bytes before a place, it finds in the tokens before it.
-/
namespace PineLang
namespace Lexer

/-! ## Lexemes in their text -/

/-- Lexemes as they stand between the bytes before them and the bytes behind. The flag says that a line has just been
    ended, so that empty lines may follow. -/
inductive Neat : Bool → Bytes → Bytes → List Lexeme → Prop
  | done {ended : Bool} {before behind : Bytes} : Neat ended before behind []
  | next {ended : Bool} {before gap text behind : Bytes} {l : Lexeme} {ls : List Lexeme}
      (blank : ∀ b ∈ gap, b = 0x20 ∨ ended = true ∧ b = 0x0A) (start : l.span.start = (before ++ gap).length)
      (stop : l.span.stop = (before ++ gap ++ text).length) (spelled : ∀ s ∈ spelling? l.kind, s = text)
      (others : Neat (l.kind == .newLine) (before ++ gap ++ text) behind ls) :
      Neat ended before (gap ++ text ++ behind) (l :: ls)

namespace Neat

variable {ended : Bool} {before gap behind : Bytes} {l : Lexeme} {ls ms : List Lexeme}

theorem behind_spaces (blank : ∀ b ∈ gap, b = 0x20 ∨ ended = true ∧ b = 0x0A) (neat : Neat ended (before ++ gap) behind ls) :
    Neat ended before (gap ++ behind) ls := by
  cases neat with
  | done => exact .done
  | @next _ _ more text rest l ls blank' start stop spelled others =>
    rw [← List.append_assoc, ← List.append_assoc]
    rw [List.append_assoc before gap more] at start stop others
    exact .next (List.forall_mem_append.mpr ⟨blank, blank'⟩) start stop spelled others

theorem relax (neat : Neat false before behind ls) : Neat ended before behind ls := by
  cases neat with
  | done => exact .done
  | next blank start stop spelled others =>
    refine .next (fun b member => ?_) start stop spelled others
    obtain space | ⟨⟨⟩, -⟩ := blank b member
    exact .inl space

/-- Behind a token that stands for no bytes. -/
theorem mark (place : l.span = .point l.span.file before.length) (empty : spelling? l.kind = some [])
    (neat : Neat false before behind ls) : Neat false before behind (l :: ls) := by
  have single : l.kind ≠ .newLine := by
    intro isBreak
    rw [isBreak] at empty
    cases empty
  have none : (l.kind == .newLine) = false := by simpa using single
  refine @Neat.next false before [] [] behind l ls (List.forall_mem_nil _) ?_ ?_ ?_ ?_
  · rw [place, Span.point, List.append_nil]
  · rw [place, Span.point, List.append_nil, List.append_nil]
  · rw [empty]
    exact fun s known => (Option.some.inj known).symm
  · rw [none, List.append_nil, List.append_nil]
    exact neat

theorem layout {file old new : Nat} (neat : Neat false before behind ls) :
    Neat false before behind (layout file old new before.length ++ ls) := by
  have marks (k : Kind) (empty : spelling? k = some []) : ∀ n, Neat false before behind
      (List.replicate n (Lexeme.token ⟨k, .point file before.length, "", .none⟩) ++ ls) := by
    intro n
    induction n with
    | zero => exact neat
    | succ n ih => exact .mark rfl empty ih
  unfold Lexer.layout
  split
  · exact marks .indent rfl _
  · exact marks .dedent rfl _

end Neat

/-! ## Reading neat text -/

section Reading

variable {file depth off : Nat} {c : Cursor} {ls : List Lexeme} {b : UInt8} {bs : Bytes}

theorem skipTrivia_space (off : Nat) (bs : Bytes) : skipTrivia ⟨off, 0x20 :: bs⟩ = skipTrivia ⟨off + 1, bs⟩ := by
  have blank : isBlank 0x20 = true := rfl
  simp only [skipTrivia, List.takeWhile_cons_of_pos blank, Cursor.advance, List.length_cons, List.drop_succ_cons]
  rw [Nat.add_comm _ 1, ← Nat.add_assoc]
  rfl

theorem skipTrivia_eq (notBlank : isBlank b = false) (notComment : startsComment (b :: bs) = false) :
    skipTrivia ⟨off, b :: bs⟩ = ⟨off, b :: bs⟩ := by
  simp [skipTrivia, notBlank, Cursor.advance, notComment]

theorem skipTrivia_neat : ∀ {bs : Bytes}, none ∉ pieces depth bs → ∀ off, ∃ gap rest, bs = gap ++ rest ∧
    (∀ b ∈ gap, b = 0x20) ∧ rest.head? ≠ some 0x20 ∧ skipTrivia ⟨off, bs⟩ = ⟨off + gap.length, rest⟩ ∧
      pieces depth bs = pieces depth rest
  | [], _, off => ⟨[], [], rfl, List.forall_mem_nil _, by simp, rfl, rfl⟩
  | b :: bs, clean, off => by
    by_cases space : b = 0x20
    · subst space
      rw [pieces_blank] at clean ⊢
      obtain ⟨gap, rest, rfl, spaces, other, there, same⟩ := skipTrivia_neat clean (off + 1)
      refine ⟨0x20 :: gap, rest, rfl, List.forall_mem_cons.mpr ⟨rfl, spaces⟩, other, ?_, same⟩
      rw [skipTrivia_space, there, List.length_cons, Nat.add_right_comm]
      rfl
    · have plain : isBlank b = false ∧ startsComment (b :: bs) = false := by
        by_cases atBreak : b = 0x0A
        · subst atBreak
          exact ⟨rfl, rfl⟩
        · rw [← Bool.or_eq_false_iff]
          refine Bool.eq_false_iff.mpr fun fault => ?_
          rw [pieces, if_neg space, if_neg atBreak, if_pos fault] at clean
          exact clean (List.mem_singleton.mpr rfl)
      exact ⟨[], b :: bs, rfl, List.forall_mem_nil _, fun same => space (Option.some.inj same), skipTrivia_eq plain.1 plain.2, rfl⟩

/-- A line break in neat text: the empty lines and spaces behind it, and where they lead. -/
theorem lineBreak_neat (clean : none ∉ pieces depth (0x0A :: bs)) (file off : Nat) : ∃ gap rest level,
    bs = gap ++ rest ∧ (∀ b ∈ gap, b = 0x20 ∨ b = 0x0A) ∧
      lineBreak file depth ⟨off, 0x0A :: bs⟩ = (.token ⟨.newLine, ⟨file, off, off + 1⟩, "\n", .none⟩ ::
        layout file depth level (off + 1 + gap.length), level, ⟨off + 1 + gap.length, rest⟩) ∧
        pieces depth (0x0A :: bs) = Lexer.mark .newLine "\n" :: (turn depth level ++ pieces level rest) := by
  obtain ⟨k, -, bound, found⟩ := lineHead_reaches 0 0 0 bs
  obtain ⟨m, -, bound', found'⟩ := lineHead_reaches 0 (off + 1) (off + 1) bs
  obtain ⟨width, same⟩ := lineHead_alike 0 (off + 1) 0 (off + 1) 0 bs
  have agree : m = k := by
    have lengths := congrArg List.length same
    simp only [found, found', Cursor.advance, List.length_drop] at lengths bound bound'
    omega
  subst agree
  by_cases plain : (lineHead 0 0 0 bs).width % indentWidth = 0 ∧
      ∀ c ∈ bs.take (lineHead 0 0 0 bs).cursor.off, c = 0x20 ∨ c = 0x0A
  · obtain ⟨even, spaces⟩ := plain
    have length : (bs.take m).length = m := List.length_take_of_le bound
    refine ⟨bs.take m, bs.drop m, (lineHead 0 0 0 bs).width / indentWidth, (List.take_append_drop m bs).symm, ?_, ?_, ?_⟩
    · simpa only [found, Cursor.advance, Nat.zero_add] using spaces
    · simp only [lineBreak, lineTo, List.drop_one, List.tail_cons, width, even, found', Cursor.advance, length]
      rfl
    · rw [pieces, if_neg (by decide), if_pos rfl, if_pos ⟨even, spaces⟩, found]
      rfl
  · rw [pieces, if_neg (by decide), if_pos rfl, if_neg plain] at clean
    exact absurd (List.mem_singleton.mpr rfl) clean

/-- A lexeme of neat text: it is a token, spelled as its kind is. -/
theorem lexeme_neat (clean : none ∉ pieces depth (b :: bs)) (inside : b ≠ 0x20) (inLine : b ≠ 0x0A) (file off : Nat) :
    ∃ t text rest, b :: bs = text ++ rest ∧ lexeme file ⟨off, b :: bs⟩ = (.token t, ⟨off + text.length, rest⟩) ∧
      t.span = ⟨file, off, off + text.length⟩ ∧ (∀ s ∈ spelling? t.kind, s = text) ∧
        pieces depth (b :: bs) = some t.bare :: pieces depth rest := by
  have step : pieces depth (b :: bs) = piece (b :: bs) :: pieces depth (lexeme 0 ⟨0, b :: bs⟩).2.rest := by
    by_cases fault : (isBlank b || startsComment (b :: bs)) = true
    · rw [pieces, if_neg inside, if_neg inLine, if_pos fault] at clean
      exact absurd (List.mem_singleton.mpr rfl) clean
    · rw [pieces, if_neg inside, if_neg inLine, if_neg fault]
  obtain ⟨k, -, bound, found⟩ := lexeme_reaches 0 (c := ⟨0, b :: bs⟩) (List.cons_ne_nil b bs)
  obtain ⟨m, -, bound', found'⟩ := lexeme_reaches file (c := ⟨off, b :: bs⟩) (List.cons_ne_nil b bs)
  obtain ⟨placeless, same⟩ := lexeme_alike file ⟨off, b :: bs⟩
  have agree : m = k := by
    have lengths := congrArg List.length same
    simp only [found, found', Cursor.advance, List.length_drop] at lengths bound bound'
    omega
  subst agree
  have covers := lexeme_covers file ⟨off, b :: bs⟩
  have said := congrArg Lexeme.bare? placeless
  rw [Lexeme.bare?_placeless, Lexeme.bare?_placeless] at said
  rw [step] at clean ⊢
  generalize lexeme file ⟨off, b :: bs⟩ = read at *
  obtain ⟨l, d⟩ := read
  cases l with
  | error e earlier =>
    rw [piece, ← said] at clean
    exact absurd (List.mem_cons_self ..) clean
  | token t =>
    have length : ((b :: bs).take m).length = m := List.length_take_of_le bound
    have off : (lexeme 0 ⟨0, b :: bs⟩).2.off = m := by
      rw [found]
      exact Nat.zero_add m
    have rest : (lexeme 0 ⟨0, b :: bs⟩).2.rest = (b :: bs).drop m := by
      rw [found]
      rfl
    have first : piece (b :: bs) =
        if (spelling? t.kind).all (· == (b :: bs).take m) then some t.bare else none := by
      rw [piece, ← said, off]
      rfl
    rw [first] at clean ⊢
    by_cases spelled : (spelling? t.kind).all (· == (b :: bs).take m) = true
    · refine ⟨t, (b :: bs).take m, (b :: bs).drop m, (List.take_append_drop m _).symm, ?_, ?_, fun s known => ?_, ?_⟩
      · simp only at found'
        rw [found', length]
        rfl
      · rw [covers.span t rfl, length]
        simp only at found'
        rw [found']
        rfl
      · rw [known] at spelled
        exact eq_of_beq spelled
      · rw [if_pos spelled, rest]
    · rw [if_neg spelled] at clean
      exact absurd (List.mem_cons_self ..) clean

/-- Where `pieces` finds no fault, it says what the lexemes say, and they stand neatly in the text. -/
theorem Run.neat (run : Run file depth c ls) : ∀ {before : Bytes}, before.length = c.off → none ∉ pieces depth c.rest →
    Neat false before c.rest ls ∧ ls.map Lexeme.bare? = pieces depth c.rest := by
  induction run with
  | @stop depth c atEnd =>
    intro before place clean
    obtain ⟨gap, rest, split, spaces, -, there, same⟩ := skipTrivia_neat clean c.off
    rw [there] at atEnd ⊢
    obtain rfl : rest = [] := atEnd
    have here : (before ++ gap).length = c.off + gap.length := by rw [List.length_append, place]
    have ends : Neat false (before ++ gap) [] (layout file depth 0 (c.off + gap.length) ++ [endOfFile file (c.off + gap.length)]) := by
      rw [← here]
      exact .layout (.mark rfl rfl .done)
    rw [same, pieces_nil, List.map_append, map_layout, split]
    exact ⟨.behind_spaces (fun b member => .inl (spaces b member)) ends, rfl⟩
  | @line depth c ls atBreak more ih =>
    intro before place clean
    obtain ⟨gap, rest, split, spaces, -, there, same⟩ := skipTrivia_neat clean c.off
    rw [there] at atBreak more ih ⊢
    obtain ⟨tail, rfl⟩ := List.head?_eq_some_iff.mp atBreak
    rw [same] at clean ⊢
    obtain ⟨below, rest, level, rfl, blank, line, reads⟩ := lineBreak_neat clean file (c.off + gap.length)
    rw [line] at more ih ⊢
    have here : (before ++ gap ++ [0x0A] ++ below).length = c.off + gap.length + 1 + below.length := by
      simp only [List.length_append, List.length_singleton, place]
    have later : none ∉ pieces level rest := by
      intro fault
      rw [reads] at clean
      exact clean (List.mem_cons_of_mem _ (List.mem_append_right _ fault))
    obtain ⟨neat, told⟩ := ih here later
    have behind : Neat true (before ++ gap ++ [0x0A]) (below ++ rest)
        (layout file depth level (c.off + gap.length + 1 + below.length) ++ ls) := by
      refine .behind_spaces (fun b member => (blank b member).imp id fun isBreak => ⟨rfl, isBreak⟩) (.relax ?_)
      rw [← here]
      exact .layout neat
    refine ⟨?_, ?_⟩
    · have line : Neat false before (gap ++ [0x0A] ++ (below ++ rest))
          (.token ⟨.newLine, ⟨file, c.off + gap.length, c.off + gap.length + 1⟩, "\n", .none⟩ :: _) :=
        .next (fun b member => .inl (spaces b member)) (by rw [List.length_append, place]; rfl)
          (by simp only [List.length_append, List.length_singleton, place]; rfl) (fun s known => (Option.some.inj known).symm) behind
      rw [split]
      simpa only [List.append_assoc, List.cons_append, List.nil_append] using line
    · rw [reads, ← told]
      simp only [List.cons_append, List.map_cons, List.map_append, map_layout]
      rfl
  | @piece depth c ls inside inLine more ih =>
    intro before place clean
    obtain ⟨gap, rest, split, spaces, other, there, same⟩ := skipTrivia_neat clean c.off
    rw [there] at inside inLine more ih ⊢
    obtain ⟨b, bs, rfl⟩ := List.exists_cons_of_ne_nil inside
    rw [same] at clean ⊢
    obtain ⟨t, text, rest, split', read, span, spelled, reads⟩ := lexeme_neat clean (fun space => other (congrArg some space))
      (fun isBreak => inLine (congrArg some isBreak)) file (c.off + gap.length)
    rw [read] at more ih ⊢
    have here : (before ++ gap ++ text).length = c.off + gap.length + text.length := by
      simp only [List.length_append, place]
    have later : none ∉ pieces depth rest := by
      intro fault
      rw [reads] at clean
      exact clean (List.mem_cons_of_mem _ fault)
    obtain ⟨neat, told⟩ := ih here later
    refine ⟨?_, by rw [reads, ← told]; rfl⟩
    rw [split, split', ← List.append_assoc]
    refine .next (fun b member => .inl (spaces b member)) ?_ ?_ spelled (.relax neat)
    · rw [List.length_append, place]
      exact congrArg Span.start span
    · rw [here]
      exact congrArg Span.stop span

end Reading

/-- The lexemes of a source in which `pieces` finds no fault. -/
theorem lexemes_neat {source : Bytes} (clean : none ∉ pieces 0 source) (file : Nat) :
    Neat false [] source (lexemes file source) ∧ (lexemes file source).map Lexeme.bare? = pieces 0 source := by
  have run : Run file 0 ⟨0, source⟩ (lexemes file source) := lexemesFrom_run file (Nat.lt_succ_self _)
  exact run.neat rfl clean

end Lexer
end PineLang
