import Mathlib.Data.List.Flatten
import Mathlib.Data.List.Nodup
import PineLang.Compile
import PineLang.Proofs.ParserFaults
import PineLang.Proofs.TokenStream

/-!
What is reported when a source is read. The errors of the lexer start at different places, so none is reported twice
(`Run.scattered`), and the fault of the parser is not one of theirs. A parse succeeds exactly if nothing is
reported; if it fails, its fault is reported once (`parse_reported`).
-/
namespace PineLang
namespace Lexer

/-! ## Where errors start -/

/-- Errors that start at different places, all of them between two offsets. -/
structure Scattered (first last : Nat) (es : List LexError) : Prop where
  forward : first ≤ last
  within : ∀ e ∈ es, first ≤ e.span.start ∧ e.span.start < last
  distinct : (es.map fun e => e.span.start).Nodup

namespace Scattered

variable {first middle last : Nat} {es fs : List LexError}

theorem nil (forward : first ≤ last) : Scattered first last [] := ⟨forward, List.forall_mem_nil _, .nil⟩

theorem single {e : LexError} (after : first ≤ e.span.start) (before : e.span.start < last) : Scattered first last [e] :=
  ⟨by omega, by simpa using ⟨after, before⟩, List.nodup_singleton _⟩

theorem append (before : Scattered first middle es) (behind : Scattered middle last fs) : Scattered first last (es ++ fs) where
  forward := Nat.le_trans before.forward behind.forward
  within := by
    intro e member
    obtain inside | inside := List.mem_append.mp member
    · have place := before.within e inside
      have order := behind.forward
      omega
    · have place := behind.within e inside
      have order := before.forward
      omega
  distinct := by
    rw [List.map_append]
    refine before.distinct.append behind.distinct ?_
    intro start inFirst inSecond
    obtain ⟨e, member, rfl⟩ := List.mem_map.mp inFirst
    obtain ⟨f, member', same⟩ := List.mem_map.mp inSecond
    have place := before.within e member
    have place' := behind.within f member'
    omega

end Scattered

/-- A piece of a line that is read from an offset on: its errors start before the place that comes next. -/
def ScatteredFrom (first : Nat) (read : Lexeme × Cursor) : Prop := Scattered first read.2.off read.1.reports

/-- What is read has no error, or one that starts where it starts. -/
def Lone (first : Nat) (l : Lexeme) : Prop := l.reports = [] ∨ ∃ e, l.reports = [e] ∧ e.span.start = first

theorem Lone.scattered {first last : Nat} {l : Lexeme} (lone : Lone first l) (further : first < last) :
    Scattered first last l.reports := by
  obtain none | ⟨e, one, here⟩ := lone
  · rw [none]
    exact .nil (Nat.le_of_lt further)
  · rw [one]
    exact .single (by omega) (by omega)

theorem stringBody_scattered {file start : Nat} : ∀ (bs : Bytes) (skip off : Nat) (text : List Char) (bad : Option LexError),
    start < off → (∀ e ∈ bad, start < e.span.start ∧ e.span.start < off) →
      ScatteredFrom start (stringBody file start skip off text bad bs)
  | bs, skip, off, text, bad, behind, early => by
    -- The string's own error starts at its quote, the error of an escape behind it.
    have unterminated (stop : Nat) {c : Cursor} (further : off ≤ c.off) :
        ScatteredFrom start (.error ⟨.unterminatedString, ⟨file, start, stop⟩⟩ bad, c) := by
      have escapes : Scattered (start + 1) c.off bad.toList := by
        cases bad with
        | none => exact .nil (by omega)
        | some e =>
          have place := early e rfl
          exact .single (by omega) (by omega)
      refine ⟨by simp only; omega, ?_, ?_⟩
      · intro e member
        obtain inside | own := List.mem_append.mp member
        · have place := escapes.within e inside
          simp only
          omega
        · rw [List.mem_singleton.mp own]
          simp only
          omega
      · rw [Lexeme.reports, List.map_append]
        refine escapes.distinct.append (List.nodup_singleton _) ?_
        intro place inFirst inSecond
        obtain ⟨e, member, rfl⟩ := List.mem_map.mp inFirst
        have before := escapes.within e member
        simp only [List.map_cons, List.map_nil, List.mem_singleton] at inSecond
        omega
    have later {off' : Nat} (further : off ≤ off') (e : LexError) (known : e ∈ bad) :
        start < e.span.start ∧ e.span.start < off' := by
      have place := early e known
      omega
    cases bs with
    | nil => exact unterminated _ (Nat.le_refl off)
    | cons b rest =>
    cases skip with
    | succ k => exact stringBody_scattered rest k (off + 1) text bad (by omega) (later (by omega))
    | zero =>
      rw [stringBody.eq_def]
      simp only
      split
      · exact unterminated _ (Nat.le_refl off)
      · split
        · cases bad with
          | none => exact Scattered.nil (by simp only; omega)
          | some e =>
            have place := early e rfl
            exact Scattered.single (by omega) (by simp only; omega)
        · split
          · cases rest with
            | nil => exact unterminated _ (by simp only; omega)
            | cons e rest' =>
              simp only
              split
              · exact unterminated _ (by simp only; omega)
              · split
                · exact stringBody_scattered rest' _ _ _ _ (by omega) (later (by omega))
                · refine stringBody_scattered rest' _ _ _ _ (by omega) ?_
                  intro e known
                  cases bad with
                  | none =>
                    cases known
                    exact ⟨behind, Nat.lt_add_of_pos_right (by decide)⟩
                  | some e' =>
                    cases known
                    exact later (by omega) e' rfl
          · exact stringBody_scattered rest _ _ _ _ (by omega) (later (by omega))

theorem word_lone (file : Nat) (c : Cursor) : Lone c.off (word file c).1 := by
  unfold word
  simp only
  split
  · exact .inl rfl
  · exact .inr ⟨_, rfl, rfl⟩

theorem number_lone (file : Nat) (c : Cursor) : Lone c.off (number file c).1 := by
  by_cases whole : fractionRun c.rest = []
  · rw [number_int whole]
    simp only
    split
    · exact .inl rfl
    · exact .inr ⟨_, rfl, rfl⟩
  · rw [number_float whole]
    simp only
    split
    · exact .inl rfl
    · exact .inr ⟨_, rfl, rfl⟩

theorem operator_lone (file : Nat) (c : Cursor) : Lone c.off (operator file c).1 := by
  unfold operator
  split
  · exact .inl rfl
  · exact .inr ⟨_, rfl, rfl⟩

theorem lexeme_lone (file : Nat) (c : Cursor) : Lone c.off (lexeme file c).1 ∨ lexeme file c = string file c := by
  cases lexeme_readBy file c with
  | word _ read => exact .inl (read ▸ word_lone file c)
  | number _ _ read => exact .inl (read ▸ number_lone file c)
  | string _ read => exact .inr read
  | operator read => exact .inl (read ▸ operator_lone file c)

theorem lexeme_scattered (file : Nat) {c : Cursor} (inside : c.rest ≠ []) : ScatteredFrom c.off (lexeme file c) := by
  obtain lone | isString := lexeme_lone file c
  · have shorter := (lexeme_reaches file inside).length
    have total := (lexeme_reaches file inside).off.2
    exact lone.scattered (by omega)
  · rw [isString]
    exact stringBody_scattered _ _ _ _ _ (Nat.lt_succ_self _) nofun

/-- The line that is found starts no earlier than the first, and before its content if that is indented. -/
theorem lineHead_start (width start off : Nat) (bs : Bytes) : start ≤ off → (width = 0 ∨ start < off) →
    start ≤ (lineHead width start off bs).lineStart ∧
      ((lineHead width start off bs).width = 0 ∨
        (lineHead width start off bs).lineStart < (lineHead width start off bs).cursor.off) := by
  refine lineHead.induct
    (fun width start off bs => start ≤ off → (width = 0 ∨ start < off) →
      start ≤ (lineHead width start off bs).lineStart ∧
        ((lineHead width start off bs).width = 0 ∨
          (lineHead width start off bs).lineStart < (lineHead width start off bs).cursor.off))
    (fun start off bs => start ≤ off →
      start ≤ (commentLine start off bs).lineStart ∧
        ((commentLine start off bs).width = 0 ∨
          (commentLine start off bs).lineStart < (commentLine start off bs).cursor.off))
    ?_ ?_ ?_ ?_ ?_ ?_ ?_ ?_ ?_ ?_ width start off bs
  · intro width start off _ _
    exact ⟨Nat.le_refl _, .inl rfl⟩
  · intro width start off rest ih order _
    simpa only [lineHead] using ih (by omega) (by omega)
  · intro width start off rest ih order _
    simpa only [lineHead] using ih (by omega) (by omega)
  · intro width start off rest ih order indented
    simpa only [lineHead] using ih (by omega) (by omega)
  · intro width start off rest ih order _
    obtain ⟨later, content⟩ := ih (Nat.le_refl _) (.inl rfl)
    rw [lineHead]
    exact ⟨by omega, content⟩
  · intro width start off rest ih order _
    simpa only [lineHead] using ih (by omega)
  · intro width start off b rest notSpace notTab notReturn notBreak notComment _ indented
    rw [lineHead.eq_7 _ _ _ _ _ notSpace notTab notReturn notBreak notComment]
    exact ⟨Nat.le_refl _, indented⟩
  · intro start off _
    exact ⟨Nat.le_refl _, .inl rfl⟩
  · intro start off rest ih order
    obtain ⟨later, content⟩ := ih (Nat.le_refl _) (.inl rfl)
    rw [commentLine]
    exact ⟨by omega, content⟩
  · intro start off b rest notBreak ih order
    rw [commentLine.eq_3 _ _ _ _ notBreak]
    exact ih (by omega)

theorem reports_layout (file old new off : Nat) : (layout file old new off).flatMap Lexeme.reports = [] := by
  unfold layout
  split <;> simp [Lexeme.reports]

theorem lineBreak_scattered (file depth : Nat) {c : Cursor} (inside : c.rest ≠ []) :
    Scattered c.off (lineBreak file depth c).2.2.off ((lineBreak file depth c).1.flatMap Lexeme.reports) := by
  have forward := (lineBreak_reaches file depth inside).off.1
  obtain ⟨later, content⟩ := lineHead_start 0 (c.off + 1) (c.off + 1) (c.rest.drop 1) (Nat.le_refl _) (.inl rfl)
  unfold lineBreak lineTo at forward ⊢
  simp only [List.flatMap_append, List.flatMap_cons, reports_layout] at forward ⊢
  split
  · exact .nil forward
  · next uneven =>
    have indented : (lineHead 0 (c.off + 1) (c.off + 1) (c.rest.drop 1)).width ≠ 0 := by
      intro none
      rw [none] at uneven
      exact uneven rfl
    exact .single (by simp only; omega) (content.resolve_left indented)

/-- The errors of a source start at different places. -/
theorem Run.scattered {file depth : Nat} {c : Cursor} {ls : List Lexeme} (run : Run file depth c ls) :
    Scattered c.off (c.off + c.rest.length + 1) (ls.flatMap Lexeme.reports) := by
  induction run with
  | @stop depth c atEnd =>
    rw [List.flatMap_append, reports_layout]
    exact .nil (by omega)
  | @line depth c ls atBreak more ih =>
    have inside : (skipTrivia c).rest ≠ [] := fun none => by simp [none] at atBreak
    obtain ⟨forward, total⟩ := (skipTrivia_reaches c).off
    rw [(lineBreak_reaches file depth inside).off.2, total] at ih
    rw [List.flatMap_append]
    exact ((Scattered.nil forward).append (lineBreak_scattered file depth inside)).append ih
  | @piece depth c ls inside inLine more ih =>
    obtain ⟨forward, total⟩ := (skipTrivia_reaches c).off
    rw [(lexeme_reaches file inside).off.2, total] at ih
    rw [List.flatMap_cons]
    exact ((Scattered.nil forward).append (lexeme_scattered file inside)).append ih

end Lexer

/-! ## What a parse reports -/

/-- The diagnostics of a source's lexical errors are told apart by where they start. -/
theorem lexical_reports_nodup (file : Nat) (source : Bytes) :
    (((lexemes file source).flatMap Lexeme.reports).map LexError.diagnostic).Nodup := by
  have run := @Lexer.lexemesFrom_run file (source.length + 1) 0 ⟨0, source⟩ (Nat.lt_succ_self _)
  have starts := run.scattered.distinct
  rw [show (fun e : LexError => e.span.start) = (fun d : Diagnostic => d.span.start) ∘ LexError.diagnostic from rfl,
    ← List.map_map] at starts
  exact starts.of_map

/-- An error of the lexer and a fault of the parser bear codes of different stages. -/
theorem diagnostic_ne_lexical {e : SyntaxError} (caused : e.Caused) (own : ∀ f, e.fault ≠ .lexical f) (f : LexError) :
    f.diagnostic ≠ e.fault.diagnostic := by
  intro same
  have lexical : f.diagnostic.code.number < 2000 := by
    obtain ⟨fault, span⟩ := f
    cases fault <;> exact Nat.le_of_ble_eq_true rfl
  rw [same] at lexical
  unfold SyntaxError.Caused at caused
  cases fault : e.fault with
  | lexical f => exact own f fault
  | cancelled | exhausted => rw [fault] at caused; exact caused
  | unexpectedEnd | unexpectedToken | expectedType | invalidTarget =>
    rw [fault] at lexical
    exact absurd lexical (Nat.not_lt_of_ge (Nat.le_of_ble_eq_true rfl))

/-- A fault of the parser that is no error of the lexer is reported by the parser itself. -/
theorem parseReports_own {ls : List Lexeme} {e : SyntaxError} (caused : e.Caused) (own : ∀ f, e.fault ≠ .lexical f) :
    parseReports ls (.error e) =
      ((ls.take (ls.length - e.rest.length + 2)).flatMap Lexeme.reports).map LexError.diagnostic ++ [e.fault.diagnostic] := by
  unfold SyntaxError.Caused at caused
  cases fault : e.fault with
  | lexical f => exact absurd fault (own f)
  | cancelled | exhausted => rw [fault] at caused; exact caused.elim
  | unexpectedEnd | unexpectedToken | expectedType | invalidTarget => simp only [parseReports, fault]

/-- Where a parse stops, its fault is reported once. -/
theorem fault_reported {file : Nat} {source : Bytes} {e : SyntaxError} (failed : parse (lexemes file source) = .error e) :
    (parseReports (lexemes file source) (.error e)).count e.fault.diagnostic = 1 := by
  obtain ⟨caused, ts, taken, -⟩ := parse_error failed
  have distinct := lexical_reports_nodup file source
  generalize lexemes file source = ls at taken distinct ⊢
  have seen : (((ls.take (ls.length - e.rest.length + 2)).flatMap Lexeme.reports).map LexError.diagnostic).Nodup :=
    distinct.sublist (((List.take_sublist _ _).flatMap _).map _)
  by_cases lexical : ∃ f, e.fault = .lexical f
  · obtain ⟨f, fault⟩ := lexical
    simp only [SyntaxError.Caused, fault] at caused
    obtain ⟨earlier, rest, here⟩ := caused
    simp only [parseReports, fault, List.append_nil]
    refine List.count_eq_one_of_mem seen ?_
    have current : Lexeme.error f earlier ∈ ls.take (ls.length - e.rest.length + 2) := by
      rw [taken, List.length_append, here, Nat.add_sub_cancel, List.take_length_add_append]
      exact List.mem_append_right _ (List.mem_cons_self ..)
    refine List.mem_map.mpr ⟨f, List.mem_flatMap.mpr ⟨_, current, ?_⟩, rfl⟩
    exact List.mem_append_right _ (List.mem_singleton_self f)
  · have own : ∀ f, e.fault ≠ .lexical f := fun f fault => lexical ⟨f, fault⟩
    rw [parseReports_own caused own, List.count_append, List.count_singleton_self, List.count_eq_zero_of_not_mem]
    intro member
    obtain ⟨f, -, same⟩ := List.mem_map.mp member
    exact diagnostic_ne_lexical caused own f same

/-- A parse that succeeds has read the lexemes of the source as a file. -/
theorem source_of_parse {file : Nat} {source : Bytes} {cancelled : Bool} {tree : File}
    (parsed : parse (lexemes file source) cancelled = .ok tree) : Grammar.Source true (lexemes file source) tree := by
  obtain ⟨ls, whole, goesOn⟩ := (Lexer.lexemesFrom_run file (c := ⟨0, source⟩) (Nat.lt_succ_self _)).ends
  have isEnd : (Lexer.endOfFile file (0 + source.length)).kind = .eof := rfl
  change lexemes file source = _ at whole
  rw [whole] at parsed ⊢
  exact parse_sound isEnd (fun l member => ne_of_beq_false (goesOn l member)) parsed

/-- It has read every lexeme but the last as a declaration. -/
theorem declarations_of_parse {file : Nat} {source : Bytes} {cancelled : Bool} {tree : File}
    (parsed : parse (lexemes file source) cancelled = .ok tree) :
    ∃ ls, lexemes file source = ls ++ [Lexer.endOfFile file source.length] ∧
      Grammar.Declarations true ls tree.items := by
  obtain ⟨ls, whole, goesOn⟩ := (Lexer.lexemesFrom_run file (c := ⟨0, source⟩) (Nat.lt_succ_self _)).ends
  rw [Nat.zero_add] at whole
  have derived := source_of_parse parsed
  generalize shape : lexemes file source = all at derived
  cases derived with
  | mk inner ends =>
    obtain ⟨rfl, last⟩ := List.append_inj' (shape.symm.trans whole) rfl
    exact ⟨_, by rw [last], inner⟩

/-- None of the lexemes of a source that parses is an error. -/
theorem clean_of_parse {file : Nat} {source : Bytes} {cancelled : Bool} {tree : File}
    (parsed : parse (lexemes file source) cancelled = .ok tree) :
    ∀ l ∈ lexemes file source, l.reports = [] := by
  obtain ⟨ls, whole, derived⟩ := declarations_of_parse parsed
  rw [whole]
  intro l member
  obtain inside | last := List.mem_append.mp member
  · exact reports_of_kind (derived.proper l inside).2
  · rw [List.mem_singleton.mp last]
    rfl

theorem reports_of_parse {file : Nat} {source : Bytes} {cancelled : Bool} {tree : File}
    (parsed : parse (lexemes file source) cancelled = .ok tree) : parseReports (lexemes file source) (.ok tree) = [] := by
  rw [parseReports, List.flatMap_eq_nil_iff.mpr (clean_of_parse parsed)]
  rfl

/-- What a parse puts into its bag, before the limit. -/
def SourceFile.parseFound (f : SourceFile) (cancelled : Bool) : List Diagnostic :=
  uniqueReports (parseReports (lexemes f.id f.content) (PineLang.parse (lexemes f.id f.content) cancelled))

theorem SourceFile.parse_bag (f : SourceFile) (limit : Nat) (cancelled : Bool) :
    (f.parse limit cancelled).bag = Bag.ofList limit (f.parseFound cancelled) := by
  unfold SourceFile.parse SourceFile.parseFound
  simp only
  split
  · next parsed => rw [parsed]
  · next failed => rw [failed]

/-- A file counts as parsed exactly if its parse succeeds, however few diagnostics its bag may hold. -/
theorem SourceFile.parse_ok? (f : SourceFile) (limit : Nat) (cancelled : Bool) :
    (f.parse limit cancelled).ok? = (PineLang.parse (lexemes f.id f.content) cancelled).toOption := by
  rw [Parsed.ok?, parse_bag, parseFound]
  cases parsed : PineLang.parse (lexemes f.id f.content) cancelled with
  | ok tree =>
    rw [reports_of_parse parsed]
    simp [SourceFile.parse, parsed, uniqueReports, uniqueFrom, Bag.ofList, Bag.addAll, Bag.hasErrors, Except.toOption]
  | error e => simp [SourceFile.parse, parsed, Except.toOption]

/-- The lexer and the parser of a source report nothing exactly if the parse succeeds. Then every lexeme is a token,
    and the file counts as parsed; if it fails, its fault is one of the source, it was reported exactly once, and
    the file does not count as parsed. Neither depends on how many diagnostics are kept. -/
theorem parse_reported (f : SourceFile) :
    ((parse (lexemes f.id f.content)).isOk = true ↔
      parseReports (lexemes f.id f.content) (parse (lexemes f.id f.content)) = []) ∧
    match parse (lexemes f.id f.content) with
    | .ok tree => (∀ l ∈ lexemes f.id f.content, l.token?.isSome) ∧ ∀ limit, (f.parse limit).ok? = some tree
    | .error e => e.fault ≠ .cancelled ∧ e.fault ≠ .exhausted ∧
        (parseReports (lexemes f.id f.content) (.error e)).count e.fault.diagnostic = 1 ∧
        ∀ limit, (f.parse limit).ok? = none := by
  cases parsed : parse (lexemes f.id f.content) with
  | ok tree =>
    have clean := clean_of_parse parsed
    refine ⟨⟨fun _ => reports_of_parse parsed, fun _ => rfl⟩, ?_, ?_⟩
    · intro l member
      cases l with
      | token t => rfl
      | error e earlier => exact absurd (clean _ member) (List.append_ne_nil_of_right_ne_nil _ (List.cons_ne_nil _ _))
    · intro limit
      rw [SourceFile.parse_ok?, parsed]
      rfl
  | error e =>
    have once := fault_reported parsed
    have caused := (parse_error parsed).1
    refine ⟨⟨nofun, ?_⟩, ?_, ?_, once, ?_⟩
    · intro none
      rw [none] at once
      cases once
    · intro fault
      rwa [SyntaxError.Caused, fault] at caused
    · intro fault
      rwa [SyntaxError.Caused, fault] at caused
    · intro limit
      rw [SourceFile.parse_ok?, parsed]
      rfl

end PineLang
