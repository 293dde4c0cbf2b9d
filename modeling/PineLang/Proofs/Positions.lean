import Mathlib.Data.List.Count
import Mathlib.Data.List.TakeWhile
import PineLang.Source.File

/-!
# Positions in a file

The line breaks before an offset tell its line, and the last of them tells where that line starts. A
line reaches from behind one line break up to the next, so the lines with the breaks between them make
up the content, and every offset up to the end lies in the line that it is told to be on.
-/
namespace PineLang

/-! ## Line breaks -/

theorem breakOffsetsFrom_eq (content : Bytes) : ∀ off, breakOffsetsFrom off content = content.idxsOf 0x0A off := by
  induction content with
  | nil => intro off; rfl
  | cons b rest ih =>
    intro off
    simp only [breakOffsetsFrom, List.idxsOf_cons, ih]

theorem breakOffsets_eq (content : Bytes) : breakOffsets content = content.idxsOf 0x0A :=
  breakOffsetsFrom_eq content 0

theorem breakOffsets_length (content : Bytes) : (breakOffsets content).length = content.count 0x0A := by
  rw [breakOffsets_eq, List.length_idxsOf]

/-- The breaks that lie before an offset are those of the text before it. -/
theorem breaks_before (content : Bytes) (off : Nat) :
    (breakOffsets content).takeWhile (· < off) = breakOffsets (content.take off) := by
  have split : breakOffsets content =
      breakOffsets (content.take off) ++ (content.drop off).idxsOf 0x0A (content.take off).length := by
    conv => lhs; rw [← List.take_append_drop off content]
    rw [breakOffsets_eq, breakOffsets_eq, List.idxsOf_append, Nat.zero_add]
  have before : ∀ b ∈ breakOffsets (content.take off), decide (b < off) = true := by
    intro b member
    rw [breakOffsets_eq] at member
    have := List.lt_add_of_mem_idxsOf b member
    have := List.length_take_le off content
    simp only [decide_eq_true_eq]
    omega
  have behind : ((content.drop off).idxsOf 0x0A (content.take off).length).takeWhile (· < off) = [] := by
    rw [List.takeWhile_eq_nil_iff]
    intro some
    have low := List.ge_of_mem_idxsOf _ (List.get_mem _ ⟨0, some⟩)
    have full : (content.take off).length = off := by
      rw [List.length_idxsOf] at some
      have := Nat.lt_of_lt_of_le some List.count_le_length
      rw [List.length_drop] at this
      rw [List.length_take]
      omega
    simp only [decide_eq_true_eq]
    omega
  rw [split, List.takeWhile_append_of_pos before, behind, List.append_nil]

/-- A line break, in the order of its place, has as many breaks before it. -/
theorem break_at {content : Bytes} {k b : Nat} (found : (breakOffsets content)[k]? = some b) :
    content[b]? = some 0x0A ∧ (content.take b).count 0x0A = k := by
  rw [breakOffsets_eq] at found
  obtain ⟨low, rfl⟩ := List.getElem?_eq_some_iff.mp found
  have counted : k < content.countP (· == 0x0A) := by simpa [List.count] using low
  have nth : (content.idxsOf 0x0A)[k] = content.findIdxNth (· == 0x0A) k := List.getElem_findIdxs_eq_findIdxNth
  constructor
  · have inside : (content.idxsOf 0x0A)[k] < content.length := by
      rw [nth]
      exact List.findIdxNth_lt_length_of_lt_countP counted
    rw [List.getElem?_eq_getElem inside, List.getElem_getElem_idxsOf_of_lawful low]
  · rw [nth]
    have := List.countPBefore_findIdxNth_of_lt_countP counted
    rwa [List.countPBefore_eq_countP_take] at this

theorem count_take_mono (content : Bytes) {a b : Nat} (le : a ≤ b) :
    (content.take a).count 0x0A ≤ (content.take b).count 0x0A :=
  (List.take_sublist_take_left le).count_le 0x0A

theorem count_take_break {content : Bytes} {b : Nat} (isBreak : content[b]? = some 0x0A) :
    (content.take (b + 1)).count 0x0A = (content.take b).count 0x0A + 1 := by
  rw [List.take_add_one, isBreak, List.count_append]
  rfl

/-! ## Lines -/

/-- From `start` up to `stop` stands the line with `k` lines before it. -/
structure IsLine (content : Bytes) (k start stop : Nat) : Prop where
  ordered : start ≤ stop
  within : stop ≤ content.length
  before : (content.take start).count 0x0A = k
  unbroken : (content.take stop).count 0x0A = k
  opened : start = 0 ∨ content[start - 1]? = some 0x0A
  closed : stop = content.length ∨ content[stop]? = some 0x0A

/-- A line with as many breaks before it as the offset starts at the offset or before it. -/
theorem IsLine.start_le {content : Bytes} {start stop off : Nat}
    (line : IsLine content ((content.take off).count 0x0A) start stop) : start ≤ off := by
  by_contra early
  rcases line.opened with rfl | isBreak
  · omega
  · have more := count_take_break isBreak
    have fewer := count_take_mono content (show off ≤ start - 1 by omega)
    rw [show start - 1 + 1 = start by omega, line.before] at more
    omega

/-- It reaches up to the offset, unless the content ends before. -/
theorem IsLine.le_stop {content : Bytes} {start stop off : Nat}
    (line : IsLine content ((content.take off).count 0x0A) start stop) (inside : off ≤ content.length) :
    off ≤ stop := by
  by_contra late
  rcases line.closed with rfl | isBreak
  · omega
  · have more := count_take_break isBreak
    have fewer := count_take_mono content (show stop + 1 ≤ off by omega)
    rw [line.unbroken] at more
    omega

/-- There are at least as many bytes before a line as lines. -/
theorem IsLine.number_le {content : Bytes} {k start stop : Nat} (line : IsLine content k start stop) : k ≤ start := by
  rw [← line.before]
  exact List.count_le_length.trans (List.length_take_le start content)

namespace SourceFile

/-- The line breaks of a file are those of its content. -/
def Indexed (f : SourceFile) : Prop := f.lineBreaks = breakOffsets f.content

theorem ofContent_indexed (id : Nat) (path : String) (content : Bytes) (flags : FileFlags) :
    (ofContent id path content flags).Indexed := rfl

variable {f : SourceFile}

theorem lineBounds?_isSome (indexed : f.Indexed) (k : Nat) :
    (f.lineBounds? k).isSome ↔ k ≤ f.content.count 0x0A := by
  have count := breakOffsets_length f.content
  unfold lineBounds?
  rw [indexed, count]
  split
  · next beyond => simp; omega
  · next within => simp; omega

theorem lineBounds?_cases (indexed : f.Indexed) {k start stop : Nat} (found : f.lineBounds? k = some (start, stop)) :
    (k = 0 ∧ start = 0 ∨ ∃ j b, k = j + 1 ∧ (breakOffsets f.content)[j]? = some b ∧ start = b + 1) ∧
      ((breakOffsets f.content)[k]? = some stop ∨ k = f.content.count 0x0A ∧ stop = f.content.length) := by
  have count := breakOffsets_length f.content
  unfold lineBounds? at found
  rw [indexed] at found
  split at found
  · cases found
  · next within =>
    simp only [Option.some.injEq, Prod.mk.injEq] at found
    obtain ⟨rfl, rfl⟩ := found
    constructor
    · cases k with
      | zero => exact .inl ⟨rfl, rfl⟩
      | succ j =>
        have low : j < (breakOffsets f.content).length := by omega
        exact .inr ⟨j, (breakOffsets f.content)[j], rfl, List.getElem?_eq_getElem low, by simp [low]⟩
    · by_cases last : k < (breakOffsets f.content).length
      · exact .inl (by simp [last])
      · exact .inr ⟨by omega, by rw [List.getElem?_eq_none (by omega)]; rfl⟩

theorem lineBounds?_isLine (indexed : f.Indexed) {k start stop : Nat} (found : f.lineBounds? k = some (start, stop)) :
    IsLine f.content k start stop := by
  obtain ⟨opening, closing⟩ := lineBounds?_cases indexed found
  have before : (f.content.take start).count 0x0A = k := by
    rcases opening with ⟨rfl, rfl⟩ | ⟨j, b, rfl, isBreak, rfl⟩
    · rfl
    · obtain ⟨here, earlier⟩ := break_at isBreak
      rw [count_take_break here, earlier]
  have closed : stop = f.content.length ∨ f.content[stop]? = some 0x0A :=
    closing.elim (fun isBreak => .inr (break_at isBreak).1) (fun last => .inl last.2)
  have unbroken : (f.content.take stop).count 0x0A = k := by
    rcases closing with isBreak | ⟨rfl, rfl⟩
    · exact (break_at isBreak).2
    · rw [List.take_length]
  refine ⟨?_, ?_, before, unbroken, ?_, closed⟩
  · by_contra reversed
    rcases opening with ⟨_, rfl⟩ | ⟨j, b, rfl, isBreak, rfl⟩
    · omega
    · have fewer := count_take_mono f.content (show stop ≤ b by omega)
      rw [unbroken, (break_at isBreak).2] at fewer
      omega
  · rcases closed with rfl | isBreak
    · exact Nat.le_refl _
    · exact Nat.le_of_lt (List.getElem?_eq_some_iff.mp isBreak).1
  · rcases opening with ⟨_, rfl⟩ | ⟨j, b, _, isBreak, rfl⟩
    · exact .inl rfl
    · exact .inr (break_at isBreak).1

/-- A file with fewer than `2 ^ 32` bytes has few enough lines as well, and gives them all out. -/
theorem lineRange_eq (indexed : f.Indexed) (short : f.content.length < 0x100000000) (k : Nat) :
    f.lineRange k = .ok (f.lineBounds? k) := by
  have few : f.lineBreaks.length < 0x100000000 := by
    rw [indexed, breakOffsets_length]
    exact Nat.lt_of_le_of_lt List.count_le_length short
  simp only [lineRange, narrow, if_pos few, if_pos short]
  rfl

/-! ## Offsets as lines and columns -/

/-- The position of an offset. -/
def place (f : SourceFile) (off : Nat) : LineCol := (f.resolve (.point f.id off)).1

theorem place_line (indexed : f.Indexed) (off : Nat) :
    (f.place off).line = ((f.content.take off).count 0x0A + 1) % 0x100000000 := by
  change (lineCol f.lineBreaks off).line = _
  rw [indexed, ← breakOffsets_length, ← breaks_before]
  rfl

end SourceFile

theorem wrapSub_mod {a b : Nat} (le : b ≤ a) : wrapSub a b = (a - b) % 0x100000000 := by
  unfold wrapSub
  omega

theorem wrapSub_of_le {a b : Nat} (le : b ≤ a) (small : a < 0x100000000) : wrapSub a b = a - b := by
  rw [wrapSub_mod le, Nat.mod_eq_of_lt (by omega)]

theorem wrapSub_succ {n : Nat} (small : n < 0x100000000) : wrapSub ((n + 1) % 0x100000000) 1 = n := by
  unfold wrapSub
  omega

namespace SourceFile

variable {f : SourceFile}

theorem count_take_le (content : Bytes) (off : Nat) : (content.take off).count 0x0A ≤ content.length :=
  ((List.take_sublist off content).count_le 0x0A).trans List.count_le_length

theorem lineOf_eq (indexed : f.Indexed) (short : f.content.length < 0x100000000) (off : Nat) :
    f.lineOf off = (f.content.take off).count 0x0A := by
  change wrapSub (f.place off).line 1 = _
  rw [place_line indexed, wrapSub_succ (Nat.lt_of_le_of_lt (count_take_le f.content off) short)]

/-- The column counts from the start of the line that the offset is on. -/
theorem place_col (indexed : f.Indexed) {off start stop : Nat}
    (found : f.lineBounds? ((f.content.take off).count 0x0A) = some (start, stop)) :
    (f.place off).col = (wrapSub off start + 1) % 0x100000000 := by
  have before : f.lineBreaks.takeWhile (· < off) = (breakOffsets f.content).take ((f.content.take off).count 0x0A) := by
    rw [indexed, breaks_before, breakOffsets_eq, List.idxsOf_take, ← breakOffsets_eq]
  have length : (f.content.take off).count 0x0A ≤ (breakOffsets f.content).length := by
    rw [breakOffsets_length]
    exact (List.take_sublist off f.content).count_le 0x0A
  change (lineCol f.lineBreaks off).col = _
  simp only [lineCol, before]
  rcases (lineBounds?_cases indexed found).1 with ⟨first, rfl⟩ | ⟨j, b, later, isBreak, rfl⟩
  · rw [first]
    rfl
  · have last : ((breakOffsets f.content).take ((f.content.take off).count 0x0A)).getLast? = some b := by
      rw [List.getLast?_eq_getElem?, List.length_take, Nat.min_eq_left length, later, Nat.add_sub_cancel,
        List.getElem?_take_of_lt (Nat.lt_succ_self j), isBreak]
    rw [last]

/-- Every offset is on a line of the file. -/
theorem line_found (indexed : f.Indexed) (off : Nat) :
    ∃ start stop, f.lineBounds? ((f.content.take off).count 0x0A) = some (start, stop) ∧
      IsLine f.content ((f.content.take off).count 0x0A) start stop := by
  have known : (f.lineBounds? ((f.content.take off).count 0x0A)).isSome := by
    rw [lineBounds?_isSome indexed]
    exact (List.take_sublist off f.content).count_le 0x0A
  obtain ⟨⟨start, stop⟩, found⟩ := Option.isSome_iff_exists.mp known
  exact ⟨start, stop, found, lineBounds?_isLine indexed found⟩

/-- The position of an offset of the content: its line, and the bytes before it on that line. -/
theorem place_eq (indexed : f.Indexed) (short : f.content.length < 0x100000000) {off : Nat}
    (inside : off ≤ f.content.length) :
    ∃ start stop, f.lineRange (f.lineOf off) = .ok (some (start, stop)) ∧
      IsLine f.content ((f.content.take off).count 0x0A) start stop ∧ start ≤ off ∧ off ≤ stop ∧
      f.place off = ⟨((f.content.take off).count 0x0A + 1) % 0x100000000, (off - start + 1) % 0x100000000⟩ := by
  obtain ⟨start, stop, found, isLine⟩ := line_found indexed off
  have low := isLine.start_le
  have col := place_col indexed found
  rw [wrapSub_of_le low (by omega)] at col
  refine ⟨start, stop, ?_, isLine, low, isLine.le_stop inside, ?_⟩
  · rw [lineRange_eq indexed short, lineOf_eq indexed short, found]
  · rw [← place_line indexed, ← col]

/-- Lines that have as many lines before them start at the same offset. -/
theorem start_eq (indexed : f.Indexed) (short : f.content.length < 0x100000000) {a b aStart aStop bStart bStop : Nat}
    (same : (f.content.take a).count 0x0A = (f.content.take b).count 0x0A)
    (aFound : f.lineRange (f.lineOf a) = .ok (some (aStart, aStop)))
    (bFound : f.lineRange (f.lineOf b) = .ok (some (bStart, bStop))) : aStart = bStart := by
  rw [lineOf_eq indexed short, same, ← lineOf_eq indexed short, bFound] at aFound
  cases aFound
  rfl

/-- Offsets with one position are one offset. -/
theorem place_injective (indexed : f.Indexed) (short : f.content.length < 0x100000000) {a b : Nat}
    (aInside : a ≤ f.content.length) (bInside : b ≤ f.content.length) (same : f.place a = f.place b) : a = b := by
  obtain ⟨aStart, aStop, aFound, -, aLow, -, aPlace⟩ := place_eq indexed short aInside
  obtain ⟨bStart, bStop, bFound, -, bLow, -, bPlace⟩ := place_eq indexed short bInside
  have aCount := count_take_le f.content a
  have bCount := count_take_le f.content b
  rw [aPlace, bPlace, LineCol.mk.injEq] at same
  have sameLine : (f.content.take a).count 0x0A = (f.content.take b).count 0x0A := by omega
  obtain rfl := start_eq indexed short sameLine aFound bFound
  omega

/-! ## Wrapped positions -/

/-- The content is as long as it can be, and it is one line, or there are only empty lines. -/
def Brimming (content : Bytes) : Prop :=
  content.length = 0xFFFFFFFF ∧ (content.count 0x0A = 0 ∨ content.count 0x0A = content.length)

/-- A position counts from one, unless it is the last of a brimming content. -/
theorem place_counts (indexed : f.Indexed) (short : f.content.length < 0x100000000) (room : ¬ Brimming f.content)
    {off : Nat} (inside : off ≤ f.content.length) : ∃ start stop, f.lineRange (f.lineOf off) = .ok (some (start, stop)) ∧
      start ≤ off ∧ f.place off = ⟨(f.content.take off).count 0x0A + 1, off - start + 1⟩ := by
  obtain ⟨start, stop, found, isLine, low, high, place⟩ := place_eq indexed short inside
  refine ⟨start, stop, found, low, ?_⟩
  have few := count_take_le f.content off
  have all : (f.content.take off).count 0x0A ≤ f.content.count 0x0A := (List.take_sublist off f.content).count_le 0x0A
  have most : f.content.count 0x0A ≤ f.content.length := List.count_le_length
  have whole (atEnd : off = f.content.length) : (f.content.take off).count 0x0A = f.content.count 0x0A := by
    rw [atEnd, List.take_length]
  have line : (f.content.take off).count 0x0A + 1 < 0x100000000 := by
    by_contra last
    exact room ⟨by omega, .inr (by omega)⟩
  have col : off - start + 1 < 0x100000000 := by
    by_contra last
    have first : start = 0 := by omega
    subst first
    have none : (f.content.take off).count 0x0A = 0 := isLine.before.symm
    exact room ⟨by omega, .inl (by rw [← whole (by omega)]; exact none)⟩
  rw [place, Nat.mod_eq_of_lt line, Nat.mod_eq_of_lt col]

/-- A single line has no number left for its end. -/
theorem place_one_line (indexed : f.Indexed) (length : f.content.length = 0xFFFFFFFF) (one : f.content.count 0x0A = 0) :
    f.lineRange (f.lineOf 0xFFFFFFFF) = .ok (some (0, 0xFFFFFFFF)) ∧ f.place 0xFFFFFFFF = ⟨1, 0⟩ := by
  rw [← length]
  obtain ⟨start, stop, found, isLine, low, high, place⟩ :=
    place_eq indexed (by omega : f.content.length < 0x100000000) (Nat.le_refl f.content.length)
  have first : start = 0 := by
    obtain first | isBreak := isLine.opened
    · exact first
    · exact absurd (List.mem_of_getElem? isBreak) (List.count_eq_zero.mp one)
  have last : stop = f.content.length := Nat.le_antisymm isLine.within high
  rw [found, first, last, place, first, List.take_length, one, length]
  exact ⟨rfl, rfl⟩

/-- The last of the empty lines has no number left for itself. -/
theorem place_empty_lines (indexed : f.Indexed) (length : f.content.length = 0xFFFFFFFF)
    (empty : f.content.count 0x0A = f.content.length) : f.place 0xFFFFFFFF = ⟨0, 1⟩ := by
  rw [← length]
  obtain ⟨start, stop, -, isLine, low, -, place⟩ :=
    place_eq indexed (by omega : f.content.length < 0x100000000) (Nat.le_refl f.content.length)
  have behind := isLine.number_le
  rw [List.take_length] at behind
  have last : start = f.content.length := by omega
  rw [place, List.take_length, empty, last, length]

end SourceFile

/-- The position comes first, by its line and then by its column. -/
def LineCol.Before (p q : LineCol) : Prop := p.line < q.line ∨ p.line = q.line ∧ p.col < q.col

namespace SourceFile

variable {f : SourceFile}

/-- Positions are in the order of their offsets. -/
theorem place_before_iff (indexed : f.Indexed) (short : f.content.length < 0x100000000) (room : ¬ Brimming f.content)
    {a b : Nat} (aInside : a ≤ f.content.length) (bInside : b ≤ f.content.length) :
    a < b ↔ (f.place a).Before (f.place b) := by
  obtain ⟨aStart, aStop, aFound, aLow, aPlace⟩ := place_counts indexed short room aInside
  obtain ⟨bStart, bStop, bFound, bLow, bPlace⟩ := place_counts indexed short room bInside
  have mono : a ≤ b → (f.content.take a).count 0x0A ≤ (f.content.take b).count 0x0A := count_take_mono f.content
  have mono' : b ≤ a → (f.content.take b).count 0x0A ≤ (f.content.take a).count 0x0A := count_take_mono f.content
  have sameStart : (f.content.take a).count 0x0A = (f.content.take b).count 0x0A → aStart = bStart :=
    fun same => start_eq indexed short same aFound bFound
  unfold LineCol.Before
  rw [aPlace, bPlace]
  dsimp only
  omega

/-! ## Lines in a row -/

/-- The text of a line, counted from zero. -/
def lineText (f : SourceFile) (k : Nat) : Bytes := (f.lineBounds? k).elim [] fun (start, stop) => f.slice start stop

theorem lineText_eq {k start stop : Nat} (found : f.lineBounds? k = some (start, stop)) :
    f.lineText k = f.slice start stop := by
  rw [lineText, found]
  rfl

/-- The last line reaches to the end. -/
theorem lineBounds?_last (indexed : f.Indexed) {start stop : Nat}
    (found : f.lineBounds? (f.content.count 0x0A) = some (start, stop)) : stop = f.content.length := by
  rcases (lineBounds?_cases indexed found).2 with isBreak | ⟨_, last⟩
  · have low := (List.getElem?_eq_some_iff.mp isBreak).1
    rw [breakOffsets_length] at low
    omega
  · exact last

/-- Every other line is followed by a line break and the next line. -/
theorem lineBounds?_next (indexed : f.Indexed) {k start stop : Nat} (more : k < f.content.count 0x0A)
    (found : f.lineBounds? k = some (start, stop)) :
    f.content[stop]? = some 0x0A ∧ ∃ stop', f.lineBounds? (k + 1) = some (stop + 1, stop') := by
  rcases (lineBounds?_cases indexed found).2 with isBreak | ⟨last, _⟩
  · obtain ⟨⟨start', stop'⟩, next⟩ := Option.isSome_iff_exists.mp ((lineBounds?_isSome indexed (k + 1)).mpr more)
    refine ⟨(break_at isBreak).1, stop', ?_⟩
    rcases (lineBounds?_cases indexed next).1 with ⟨impossible, _⟩ | ⟨j, b, same, isBreak', rfl⟩
    · omega
    · cases same
      rw [isBreak] at isBreak'
      cases isBreak'
      exact next
  · omega

/-- From the start of a line on, the content is that line and the lines behind it. -/
theorem lines_from (indexed : f.Indexed) : ∀ (more k : Nat), k + more = f.content.count 0x0A →
    ∀ {start stop}, f.lineBounds? k = some (start, stop) →
      [0x0A].intercalate ((List.range' k (more + 1)).map fun j => f.lineText j) = f.content.drop start
  | 0, k, total, start, stop, found => by
    obtain rfl : k = f.content.count 0x0A := total
    rw [List.range'_succ, List.range'_zero, List.map_singleton, List.intercalate_singleton, lineText_eq found, slice,
      lineBounds?_last indexed found, List.take_length]
  | more + 1, k, total, start, stop, found => by
    obtain ⟨isBreak, stop', next⟩ := lineBounds?_next indexed (by omega) found
    have ih := lines_from indexed more (k + 1) (by omega) next
    have ordered := (lineBounds?_isLine indexed found).ordered
    obtain ⟨inside, here⟩ := List.getElem?_eq_some_iff.mp isBreak
    rw [List.range'_succ, List.map_cons, List.intercalate_cons_of_ne_nil (by simp), ih, lineText_eq found, slice]
    calc (f.content.take stop).drop start ++ [0x0A] ++ f.content.drop (stop + 1)
        = (f.content.take stop).drop start ++ f.content.drop stop := by
          rw [List.append_assoc, List.singleton_append, ← here, ← List.drop_eq_getElem_cons inside]
      _ = f.content.drop start := by
          conv => rhs; rw [← List.take_append_drop stop f.content]
          rw [List.drop_append_of_le_length (by rw [List.length_take]; omega)]

/-- The lines are given out by 32-bit numbers that count from one; behind the last of these there can only be an empty
    line. -/
theorem getLine_eq (indexed : f.Indexed) (short : f.content.length < 0x100000000) {k : Nat}
    (known : k ≤ f.content.count 0x0A) : f.getLine ((k + 1) % 0x100000000) = .ok (f.lineText k) := by
  have most : f.content.count 0x0A ≤ f.content.length := List.count_le_length
  obtain ⟨⟨start, stop⟩, found⟩ := Option.isSome_iff_exists.mp ((lineBounds?_isSome indexed k).mpr known)
  rw [lineText_eq found]
  by_cases last : k + 1 = 0x100000000
  · have isLine := lineBounds?_isLine indexed found
    have late := isLine.number_le
    have behind : stop ≤ start := Nat.le_trans isLine.within (by omega)
    rw [last, Nat.mod_self, slice, List.drop_eq_nil_of_le (by rw [List.length_take]; omega)]
    rfl
  · have more : (k + 1 == 0) = false := rfl
    rw [Nat.mod_eq_of_lt (by omega), getLine, Nat.add_sub_cancel, lineRange_eq indexed short, found, more]
    rfl

end SourceFile

/-- Positions are coherent. The line of an offset counts the line breaks before it, it is one of the lines of the
    file, the offset lies in it, and its position is the line and the bytes before it on that line, each counted from
    one by a 32-bit number. Offsets with one position are one offset. The file has a line for every line break and one
    more, and the lines with line breaks between them are the content. Columns are counted from the start of the line,
    and positions are in the order of offsets, exactly if the content is not as long as it can be and one line, or
    empty lines only. -/
theorem positions_coherent (id : Nat) (path : String) (content : Bytes) (flags : FileFlags)
    (short : content.length < 0x100000000) :
    let f := SourceFile.ofContent id path content flags
    (∀ off ≤ content.length, f.lineOf off = (content.take off).count 0x0A ∧
      ∃ start stop, f.lineRange (f.lineOf off) = .ok (some (start, stop)) ∧ start ≤ off ∧ off ≤ stop ∧
        f.place off = ⟨(f.lineOf off + 1) % 0x100000000, (off - start + 1) % 0x100000000⟩) ∧
    (∀ a ≤ content.length, ∀ b ≤ content.length, f.place a = f.place b → a = b) ∧
    (∀ k, (∃ range, f.lineRange k = .ok (some range)) ↔ k ≤ content.count 0x0A) ∧
    (∃ lines : Nat → Bytes, (∀ k ≤ content.count 0x0A, f.getLine ((k + 1) % 0x100000000) = .ok (lines k)) ∧
      [0x0A].intercalate ((List.range (content.count 0x0A + 1)).map lines) = content) ∧
    ((∀ off ≤ content.length, ∀ start stop, f.lineRange (f.lineOf off) = .ok (some (start, stop)) →
        (f.place off).col = off - start + 1) ∧
      (∀ a ≤ content.length, ∀ b ≤ content.length, a < b ↔ (f.place a).Before (f.place b)) ↔
      ¬ SourceFile.Brimming content) := by
  intro f
  have indexed : f.Indexed := SourceFile.ofContent_indexed id path content flags
  refine ⟨?offsets, fun a aInside b bInside => SourceFile.place_injective indexed short aInside bInside, fun k => ?range,
    ⟨f.lineText, fun k => SourceFile.getLine_eq indexed short, ?joined⟩, ?counts, ?room⟩
  case offsets =>
    intro off inside
    obtain ⟨start, stop, found, -, low, high, place⟩ := SourceFile.place_eq indexed short inside
    have line := SourceFile.lineOf_eq indexed short off
    exact ⟨line, start, stop, found, low, high, by rw [line]; exact place⟩
  case range =>
    have known := SourceFile.lineBounds?_isSome indexed k
    rw [Option.isSome_iff_exists] at known
    rw [SourceFile.lineRange_eq indexed short]
    simp only [Except.ok.injEq]
    exact known
  case joined =>
    obtain ⟨⟨start, stop⟩, first⟩ :=
      Option.isSome_iff_exists.mp ((SourceFile.lineBounds?_isSome indexed 0).mpr (Nat.zero_le _))
    have atStart : start = 0 := by
      rcases (SourceFile.lineBounds?_cases indexed first).1 with ⟨_, start⟩ | ⟨j, _, impossible, _⟩
      · exact start
      · omega
    rw [List.range_eq_range']
    refine (SourceFile.lines_from indexed _ 0 (Nat.zero_add _) first).trans ?_
    rw [atStart]
    rfl
  case counts =>
    rintro ⟨columns, order⟩ ⟨length, one | empty⟩
    · obtain ⟨found, place⟩ := SourceFile.place_one_line indexed length one
      have col := columns 0xFFFFFFFF (Nat.le_of_eq length.symm) _ _ found
      rw [place] at col
      cases col
    · obtain ⟨_, _, _, _, _, _, first⟩ := SourceFile.place_eq indexed short (Nat.zero_le f.content.length)
      have ahead := (order 0 (Nat.zero_le _) 0xFFFFFFFF (Nat.le_of_eq length.symm)).mp (by decide)
      rw [SourceFile.place_empty_lines indexed length empty, first] at ahead
      simp [LineCol.Before] at ahead
  case room =>
    intro room
    refine ⟨fun off inside start stop found => ?_, fun a aInside b bInside =>
      SourceFile.place_before_iff indexed short room aInside bInside⟩
    obtain ⟨start', stop', found', -, place⟩ := SourceFile.place_counts indexed short room inside
    rw [found] at found'
    cases found'
    rw [place]

/-- An empty line, and a last line without a line break. -/
theorem positions_coherent_lines :
    let content : Bytes := [0x61, 0x0A, 0x0A, 0x62, 0x63]
    let f := SourceFile.ofContent 0 "a.pn" content {}
    content.length < 0x100000000 ∧ f.lineOf 2 = 1 ∧ f.lineRange 1 = .ok (some (2, 2)) ∧ f.place 5 = ⟨3, 3⟩ ∧
      (¬ ∃ range, f.lineRange 3 = .ok (some range)) ∧
      ∀ a ≤ content.length, ∀ b ≤ content.length, a < b ↔ (f.place a).Before (f.place b) := by
  have coherent := positions_coherent 0 "a.pn" [0x61, 0x0A, 0x0A, 0x62, 0x63] {} (by decide)
  have room : ¬ SourceFile.Brimming [0x61, 0x0A, 0x0A, 0x62, 0x63] := fun brim => absurd brim.1 (by decide)
  refine ⟨by decide, by decide, by decide, by decide, ?_, (coherent.2.2.2.2.mpr room).2⟩
  intro known
  exact absurd ((coherent.2.2.1 3).mp known) (by decide)

/-- The end of a single line of `2 ^ 32 - 1` bytes has column zero, and the last of as many empty lines has line zero. -/
theorem last_position_wraps :
    let line : SourceFile := .ofContent 0 "a.pn" (List.replicate 0xFFFFFFFF 0x61) {}
    let empty : SourceFile := .ofContent 0 "b.pn" (List.replicate 0xFFFFFFFF 0x0A) {}
    (line.content.length < 0x100000000 ∧ line.lineRange (line.lineOf 0xFFFFFFFF) = .ok (some (0, 0xFFFFFFFF)) ∧
      line.place 0xFFFFFFFF = ⟨1, 0⟩) ∧
    empty.content.length < 0x100000000 ∧ empty.place 0xFFFFFFFF = ⟨0, 1⟩ := by
  have length (b : UInt8) : (List.replicate 0xFFFFFFFF b).length = 0xFFFFFFFF := List.length_replicate
  have one : (List.replicate 0xFFFFFFFF (0x61 : UInt8)).count 0x0A = 0 := by
    rw [List.count_replicate, if_neg (by decide)]
  have all : (List.replicate 0xFFFFFFFF (0x0A : UInt8)).count 0x0A = (List.replicate 0xFFFFFFFF (0x0A : UInt8)).length := by
    rw [List.count_replicate_self, length]
  intro line empty
  have line_indexed : line.Indexed := SourceFile.ofContent_indexed ..
  have empty_indexed : empty.Indexed := SourceFile.ofContent_indexed ..
  refine ⟨⟨?_, SourceFile.place_one_line line_indexed (length 0x61) one⟩, ?_,
    SourceFile.place_empty_lines empty_indexed (length 0x0A) all⟩
  · exact Nat.lt_of_le_of_lt (Nat.le_of_eq (length 0x61)) (by decide)
  · exact Nat.lt_of_le_of_lt (Nat.le_of_eq (length 0x0A)) (by decide)

end PineLang
