import PineLang.Diag.Render
import PineLang.Proofs.Positions

/-!
# Diagnostics are rendered whole

A diagnostic whose spans are in known files and run forward is always rendered, wherever its spans lie.
The line that is shown starts at the span or before it (`IsLine.start_le`), so no difference of offsets
wraps around, and what is marked is kept within the line.
-/
namespace PineLang.Render

variable {files : Files} {o : Options} {s : Span} {f : SourceFile} {l : Location}

/-! ## Places -/

/-- The place is that of the start of the span: the line counts the line breaks before it, as far as 32 bits reach, and
    the start of the line and the column give it back, modulo `2 ^ 32`. -/
structure Tells (f : SourceFile) (o : Options) (s : Span) (l : Location) : Prop where
  path : l.path = pathText o f.path
  line : (f.content.take s.start).count 0x0A + 1 < 0x100000000 → l.line = (f.content.take s.start).count 0x0A + 1
  small : l.col < 0x100000000
  col : ((l.lineStart : Int) + l.col - 1) % 0x100000000 = (s.start : Int) % 0x100000000
  bounds : IsLine f.content ((f.content.take s.start).count 0x0A) l.lineStart l.lineStop
  text : l.lineText = f.slice l.lineStart l.lineStop

theorem cut_ok {text : Bytes} {start stop : Nat} (ordered : start ≤ stop) (within : stop ≤ text.length) :
    cut text start stop = .ok ((text.take stop).drop start) := by
  rw [cut, if_pos ⟨ordered, within⟩]

theorem locate_tells (known : files s.file = some f) (indexed : f.Indexed) (short : f.content.length < 0x100000000) :
    ∃ l, locate files o s = .ok l ∧ Tells f o s l := by
  obtain ⟨start, stop, found, line⟩ := f.line_found indexed s.start
  have low := line.start_le
  refine ⟨⟨pathText o f.path, (f.lineOf s.start + 1) % 0x100000000, (wrapSub s.start start + 1) % 0x100000000, start, stop,
    f.slice start stop⟩, ?_, rfl, ?_, Nat.mod_lt _ (by decide), ?_, line, rfl⟩
  · simp only [locate, known, f.lineRange_eq indexed short, f.lineOf_eq indexed short, found, cut_ok line.ordered line.within]
    rfl
  · intro few
    rw [f.lineOf_eq indexed short, Nat.mod_eq_of_lt few]
  · dsimp only
    rw [wrapSub_mod low]
    omega

/-- No place is told in a file that has too many bytes for 32 bits. -/
theorem locate_long (known : files s.file = some f) (indexed : f.Indexed) (one : f.content.count 0x0A = 0)
    (long : 0x100000000 ≤ f.content.length) : locate files o s = .error (.crash .contentLength) := by
  have few : f.lineBreaks.length < 0x100000000 := by
    rw [indexed, breakOffsets_length, one]
    decide
  have crash (k : Nat) : f.lineRange k = .error .contentLength := by
    simp only [SourceFile.lineRange, narrow, if_pos few, if_neg (Nat.not_lt.mpr long)]
    rfl
  simp only [locate, known, crash]

/-! ## The source line and its marker -/

theorem Tells.length (told : Tells f o s l) : l.lineText.length = l.lineStop - l.lineStart := by
  have within := told.bounds.within
  rw [told.text, SourceFile.slice, List.length_drop, List.length_take]
  omega

theorem drop_clipped {α : Type} (l : List α) (a b : Nat) :
    (l.take (max b (min a l.length))).drop (min a l.length) = (l.take b).drop a := by
  by_cases within : a ≤ l.length
  · rw [Nat.min_eq_left within]
    by_cases forward : a ≤ b
    · rw [Nat.max_eq_left forward]
    · rw [List.drop_eq_nil_of_le, List.drop_eq_nil_of_le]
      all_goals
        rw [List.length_take]
        omega
  · rw [List.drop_eq_nil_of_le, List.drop_eq_nil_of_le]
    all_goals
      rw [List.length_take]
      omega

/-- The text has the source line, and below it a marker as wide as the part of the line that lies in the span, which
    spaces and tabs as wide as the characters before it bring to its place. A blank line is left out for an empty span. -/
def Marked (o : Options) (l : Location) (s : Span) (text : Bytes) : Prop :=
  if Text.isBlankText l.lineText && s.isEmpty then text = []
  else
    let before := l.lineText.take (wrapSub s.start l.lineStart)
    let inside := (l.lineText.take (wrapSub (min s.stop l.lineStop) l.lineStart)).drop (wrapSub s.start l.lineStart)
    text = utf8 "    " ++ l.lineText ++ utf8 ("\n    " ++ String.join ((Text.chars before).map padChar) ++
      Text.boldIn o.color .green ("^".pushn '~' (max (Text.textWidth (Text.chars inside)) 1 - 1)) ++ "\n")

/-- A span that runs forward can be marked, also where it goes beyond its line or beyond the file. -/
theorem snippet_marked (told : Tells f o s l) (forward : s.start ≤ s.stop) :
    ∃ text, snippet o l s = .ok text ∧ Marked o l s text := by
  have low := told.bounds.start_le
  have ordered := told.bounds.ordered
  have length := told.length
  have startWithin : min (wrapSub s.start l.lineStart) l.lineText.length ≤ l.lineText.length := Nat.min_le_right _ _
  have stopWithin : max (wrapSub (min s.stop l.lineStop) l.lineStart)
      (min (wrapSub s.start l.lineStart) l.lineText.length) ≤ l.lineText.length := by
    have clipped := Nat.mod_le (min s.stop l.lineStop - l.lineStart) 0x100000000
    rw [wrapSub_mod (a := min s.stop l.lineStop) (by omega)]
    omega
  have before : (l.lineText.take (min (wrapSub s.start l.lineStart) l.lineText.length)).drop 0 =
      l.lineText.take (wrapSub s.start l.lineStart) := by
    rw [List.drop_zero, List.take_eq_take_iff]
    omega
  unfold snippet Marked
  split
  · exact ⟨[], rfl, rfl⟩
  · simp only [cut_ok (Nat.zero_le _) startWithin, cut_ok (Nat.le_max_right _ _) stopWithin, before, drop_clipped]
    exact ⟨_, rfl, rfl⟩

/-! ## Whole lists -/

/-- The span is in a known file and runs forward. -/
def Sound (files : Files) (s : Span) : Prop := (∃ f, files s.file = some f) ∧ s.start ≤ s.stop

/-- All spans of the diagnostic are sound. -/
def WellPlaced (files : Files) (d : Diagnostic) : Prop := Sound files d.span ∧ ∀ n ∈ d.notes, Sound files n.span

/-- The text is the line of the note: the place at which its span starts, as `path:line:col`, and the message. -/
def NoteShown (files : Files) (o : Options) (n : Note) (text : Bytes) : Prop :=
  ∃ f l, files n.span.file = some f ∧ Tells f o n.span l ∧
    text = utf8 ("  " ++ Text.boldIn o.color .blue "note:" ++ " " ++
      (l.path ++ ":" ++ toString l.line ++ ":" ++ toString l.col) ++ ": " ++ n.message ++ "\n")

/-- The text is a line with the place at which the span starts, as `path:line:col`, the severity and the code, and the
    message; then the source line with its marker; and where notes are asked for, the lines of the notes. -/
def Shown (files : Files) (o : Options) (d : Diagnostic) (text : Bytes) : Prop :=
  ∃ f l marked noted, files d.span.file = some f ∧ Tells f o d.span l ∧ Marked o l d.span marked ∧
    List.Forall₂ (NoteShown files o) d.notes noted ∧
    text = utf8 (Text.bold o.color (l.path ++ ":" ++ toString l.line ++ ":" ++ toString l.col) ++ ": " ++
        Text.boldIn o.color (severityColour d.severity) (d.severity.text ++ "[" ++ d.code.id ++ "]") ++ ": " ++
        d.message ++ "\n") ++ marked ++ if o.showNotes then noted.flatten else []

open Text (Json)

/-- The document has the ends of the span, and the place at which it starts. -/
def PlaceListed (files : Files) (o : Options) (s : Span) (j : Json) : Prop :=
  ∃ f l, files s.file = some f ∧ Tells f o s l ∧
    j = .obj [("file", .str l.path), ("start_byte", .num s.start), ("end_byte", .num s.stop), ("line", .num l.line),
      ("col", .num l.col)]

/-- The document has the message of the note, and its place. -/
def NoteListed (files : Files) (o : Options) (n : Note) (j : Json) : Prop :=
  ∃ place, PlaceListed files o n.span place ∧ j = .obj [("message", .str n.message), ("location", place)]

/-- The document has the severity, the code and the message of the diagnostic, its place, and its notes if it has some. -/
def Listed (files : Files) (o : Options) (d : Diagnostic) (j : Json) : Prop :=
  ∃ place noted, PlaceListed files o d.span place ∧ List.Forall₂ (NoteListed files o) d.notes noted ∧
    j = .obj ([("severity", .str d.severity.text), ("code", .str d.code.id), ("message", .str d.message),
      ("location", place)] ++ if d.notes = [] then [] else [("notes", .arr noted)])

variable (indexed : ∀ id f, files id = some f → f.Indexed ∧ f.content.length < 0x100000000)
include indexed

theorem locate_known (known : files s.file = some f) : ∃ l, locate files o s = .ok l ∧ Tells f o s l :=
  locate_tells known (indexed _ f known).1 (indexed _ f known).2

theorem notes_shown : ∀ {ns : List Note}, (∀ n ∈ ns, Sound files n.span) →
    ∃ noted, notes files o ns = ⟨noted.flatten, none⟩ ∧ List.Forall₂ (NoteShown files o) ns noted
  | [], _ => ⟨[], rfl, .nil⟩
  | n :: ns, sound => by
    obtain ⟨⟨f, known⟩, _⟩ := sound n (List.mem_cons_self ..)
    obtain ⟨l, located, told⟩ := locate_known (o := o) indexed known
    obtain ⟨noted, rest, each⟩ := notes_shown fun m member => sound m (List.mem_cons_of_mem n member)
    refine ⟨utf8 (noteLine o l n) :: noted, ?_, .cons ⟨f, l, known, told, rfl⟩ each⟩
    simp only [notes, located, Except.map, Output.ofExcept, Output.andThen, rest, List.flatten_cons]

theorem diagnostic_shown {d : Diagnostic} (placed : WellPlaced files d) :
    ∃ text, diagnostic files o d = ⟨text, none⟩ ∧ Shown files o d text := by
  obtain ⟨⟨⟨f, known⟩, forward⟩, sound⟩ := placed
  obtain ⟨l, located, told⟩ := locate_known (o := o) indexed known
  obtain ⟨marked, snippetOk, isMarked⟩ := snippet_marked told forward
  obtain ⟨noted, notesOk, each⟩ := notes_shown (o := o) indexed sound
  refine ⟨_, ?_, f, l, marked, noted, known, told, isMarked, each, rfl⟩
  simp only [diagnostic, located, Output.andThen, snippetOk, Output.ofExcept]
  by_cases asked : o.showNotes = true
  · simp only [asked, if_true, notesOk, List.append_assoc, headline, Location.text]
  · simp only [asked, List.append_assoc, headline, Location.text]
    rfl

theorem pretty_shown : ∀ {ds : List Diagnostic}, (∀ d ∈ ds, WellPlaced files d) →
    ∃ texts, pretty files o ds = ⟨texts.flatten, none⟩ ∧ List.Forall₂ (Shown files o) ds texts
  | [], _ => ⟨[], rfl, .nil⟩
  | d :: ds, placed => by
    obtain ⟨text, first, isShown⟩ := diagnostic_shown (o := o) indexed (placed d (List.mem_cons_self ..))
    obtain ⟨texts, rest, each⟩ := pretty_shown fun d' member => placed d' (List.mem_cons_of_mem d member)
    refine ⟨text :: texts, ?_, .cons isShown each⟩
    simp only [pretty, first, Output.andThen, rest, List.flatten_cons]

theorem locate_listed {s : Span} (known : ∃ f, files s.file = some f) :
    ∃ l, locate files o s = .ok l ∧ PlaceListed files o s (l.json s) := by
  obtain ⟨f, known⟩ := known
  obtain ⟨l, located, told⟩ := locate_known (o := o) indexed known
  exact ⟨l, located, f, l, known, told, rfl⟩

omit indexed

theorem mapM_each {α β ε : Type} {g : α → Except ε β} {R : α → β → Prop} : ∀ {xs : List α},
    (∀ x ∈ xs, ∃ y, g x = .ok y ∧ R x y) → ∃ ys, xs.mapM g = .ok ys ∧ List.Forall₂ R xs ys
  | [], _ => ⟨[], rfl, .nil⟩
  | x :: xs, each => by
    obtain ⟨y, first, related⟩ := each x (List.mem_cons_self ..)
    obtain ⟨ys, rest, all⟩ := mapM_each fun x' member => each x' (List.mem_cons_of_mem x member)
    refine ⟨y :: ys, ?_, .cons related all⟩
    rw [List.mapM_cons, first]
    simp only [bind, Except.bind, rest]
    rfl

include indexed

theorem diagnostic_listed {d : Diagnostic} (placed : WellPlaced files d) :
    ∃ j, diagnosticJson files o d = .ok j ∧ Listed files o d j := by
  obtain ⟨⟨known, _⟩, sound⟩ := placed
  obtain ⟨l, located, place⟩ := locate_listed (o := o) indexed known
  have each : ∀ n ∈ d.notes, ∃ j, noteJson files o n = .ok j ∧ NoteListed files o n j := by
    intro n member
    obtain ⟨l, located, place⟩ := locate_listed (o := o) indexed (sound n member).1
    refine ⟨noteEntry n l, ?_, l.json n.span, place, rfl⟩
    simp only [noteJson, located]
    rfl
  obtain ⟨noted, notedOk, all⟩ := mapM_each each
  have empty : noted.isEmpty = true ↔ d.notes = [] := by
    generalize d.notes = ns at all
    cases all <;> simp
  refine ⟨entry d l noted, ?_, l.json d.span, noted, place, all, ?_⟩
  · simp only [diagnosticJson, located, notedOk]
    rfl
  · simp only [entry, empty]

omit indexed

/-- Diagnostics whose spans are in known files of fewer than `2 ^ 32` bytes and run forward are all rendered, for people
    and, as far as the limit reaches, for programs: nothing stops the rendering, and every span is shown with its line
    and its column. -/
theorem rendering_complete (files : Files)
    (indexed : ∀ id f, files id = some f → f.Indexed ∧ f.content.length < 0x100000000) (ds : List Diagnostic)
    (placed : ∀ d ∈ ds, WellPlaced files d) (o : Options) (limit : Nat) :
    (∃ texts, pretty files o ds = ⟨texts.flatten, none⟩ ∧ List.Forall₂ (Shown files o) ds texts) ∧
    (∃ entries, document files o limit ds = .ok (.obj [("diagnostics", .arr entries), ("count", .num ds.length)]) ∧
      List.Forall₂ (Listed files o) (if limit = 0 then ds else ds.take limit) entries) := by
  refine ⟨pretty_shown indexed placed, ?_⟩
  have through : shown limit ds = if limit = 0 then ds else ds.take limit := by
    simp only [shown, beq_iff_eq]
  have within : ∀ d ∈ shown limit ds, d ∈ ds := by
    intro d member
    rw [through] at member
    split at member
    · exact member
    · exact List.mem_of_mem_take member
  obtain ⟨entries, made, all⟩ :=
    mapM_each fun d member => diagnostic_listed (o := o) indexed (placed d (within d member))
  refine ⟨entries, ?_, through ▸ all⟩
  simp only [document, made]
  rfl

/-- A span that cuts a character, reaches over the last line and ends behind the end of the file. -/
theorem rendering_complete_cut :
    let f := SourceFile.ofContent 0 "a.pn" [0x78, 0x0A, 0xC3, 0xA9, 0x0A] {}
    let files : Files := fun id => if id = 0 then some f else none
    let d : Diagnostic := .ofError .unexpectedInput ⟨0, 3, 9⟩ "odd" [⟨⟨0, 7, 7⟩, "the end"⟩]
    (∀ id g, files id = some g → g.Indexed ∧ g.content.length < 0x100000000) ∧ (∀ e ∈ [d], WellPlaced files e) ∧
      (pretty files {} [d]).fault = none ∧ (document files {} 0 [d]).isOk ∧
      (locate files {} d.span).toOption.map Location.text = some "a.pn:2:2" := by
  intro f files d
  have known : files 0 = some f := rfl
  have indexed : ∀ id g, files id = some g → g.Indexed ∧ g.content.length < 0x100000000 := by
    intro id g found
    by_cases first : id = 0
    · simp only [files, first, if_true, Option.some.injEq] at found
      subst found
      exact ⟨rfl, by decide⟩
    · simp only [files, first, if_false, reduceCtorEq] at found
  have placed : ∀ e ∈ [d], WellPlaced files e := by
    intro e member
    rw [List.mem_singleton.mp member]
    refine ⟨⟨⟨f, known⟩, by decide⟩, ?_⟩
    intro n noted
    rw [List.mem_singleton.mp noted]
    exact ⟨⟨f, known⟩, by decide⟩
  obtain ⟨⟨texts, written, _⟩, entries, listed, _⟩ := rendering_complete files indexed [d] placed {} 0
  refine ⟨indexed, placed, ?_, ?_, by decide⟩
  · rw [written]
  · rw [listed]
    rfl

/-- A diagnostic without a place stops the rendering. -/
theorem unlocated {d : Diagnostic} {fault : Fault} (stops : locate files o d.span = .error fault) :
    pretty files o [d] = ⟨[], some fault⟩ ∧ document files o 0 [d] = .error fault := by
  have all : shown 0 [d] = [d] := rfl
  refine ⟨?_, ?_⟩
  · simp only [pretty, diagnostic, stops, Output.andThen]
  · simp only [document, all, List.mapM_cons, diagnosticJson, stops]
    rfl

/-- A file of `2 ^ 32` bytes stops the rendering, also of the empty span at its start; and a limit leaves diagnostics out
    of the document. -/
theorem rendering_incomplete :
    let long : Files := fun _ => some (.ofContent 0 "a.pn" (List.replicate 0x100000000 0x20) {})
    let empty : Files := fun _ => some (.ofContent 0 "a.pn" [] {})
    let d : Diagnostic := .ofError .unexpectedInput ⟨0, 0, 0⟩ "odd" []
    WellPlaced long d ∧ (∀ o, pretty long o [d] = ⟨[], some (.crash .contentLength)⟩ ∧
      document long o 0 [d] = .error (.crash .contentLength)) ∧
    WellPlaced empty d ∧
      ∃ j, document empty {} 1 [d, d] = .ok (.obj [("diagnostics", .arr [j]), ("count", .num 2)]) := by
  have one : (List.replicate 0x100000000 (0x20 : UInt8)).count 0x0A = 0 := by
    rw [List.count_replicate, if_neg (by decide)]
  have length : (List.replicate 0x100000000 (0x20 : UInt8)).length = 0x100000000 := List.length_replicate
  intro long empty d
  have stops (content : Bytes) (one : content.count 0x0A = 0) (tooLong : 0x100000000 ≤ content.length) (o : Options) :
      locate (fun _ => some (.ofContent 0 "a.pn" content {})) o d.span = .error (.crash .contentLength) :=
    locate_long rfl (SourceFile.ofContent_indexed ..) one tooLong
  have placed (files : Files) (known : ∃ f, files 0 = some f) : WellPlaced files d :=
    ⟨⟨known, Nat.le_refl 0⟩, fun n member => by cases member⟩
  have indexed : ∀ id f, empty id = some f → f.Indexed ∧ f.content.length < 0x100000000 := by
    intro id f known
    cases known
    exact ⟨rfl, by decide⟩
  obtain ⟨j, made, _⟩ := diagnostic_listed (o := {}) indexed (placed empty ⟨_, rfl⟩)
  refine ⟨placed long ⟨_, rfl⟩, fun o => unlocated (stops _ one (Nat.le_of_eq length.symm) o), placed empty ⟨_, rfl⟩, j, ?_⟩
  have first : shown 1 [d, d] = [d] := rfl
  simp only [document, first, List.mapM_cons, List.mapM_nil, made]
  rfl

end PineLang.Render
