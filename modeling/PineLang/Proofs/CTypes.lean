import PineLang.C.Printer
import PineLang.Proofs.CReader
import PineLang.Proofs.CSpelling

/-!
C types are read back from their spelling, where a type that only a further header names counts as a struct
(`CType.Proper.read`).
-/
namespace PineLang.C

theorem head_append {P : UInt8 → Prop} {text more : Bytes} (head : ∃ b ∈ text.head?, P b) :
    ∃ b ∈ (text ++ more).head?, P b := by
  obtain ⟨b, first, known⟩ := head
  cases text with
  | nil => cases first
  | cons c text => exact ⟨b, first, known⟩

/-! ## Types -/

/-- Names that structs can have beside the words for types. -/
structure AreStructs (structs : List String) : Prop where
  words : ∀ s ∈ structs, isWord s = true
  names : ∀ s ∈ structs, isName s = true
  others : ∀ s ∈ structs, baseTypes.lookup s = none

/-- The type has a word, or is a pointer to one that has. -/
def CType.Readable (structs : List String) : CType → Prop
  | .struct n => n ∈ structs
  | .ptr t => t.Readable structs
  | .str => True
  | t => t ∈ baseTypes.map Prod.snd

/-- The names in the type are those of structs. A type that only a further header names counts as a struct. -/
def CType.Proper (structs : List String) : CType → Prop
  | .struct n => n ∈ structs
  | .isize => "ssize_t" ∈ structs
  | .ptr t => t.Proper structs
  | _ => True

/-- The type that the spelling of a type names. -/
def CType.named : CType → CType
  | .isize => .struct "ssize_t"
  | .anyPtr => .ptr .void
  | .other _ => .void
  | .ptr t => .ptr t.named
  | t => t

/-- Bytes that stand behind types. -/
def endsType (b : UInt8) : Bool := b == 0x20 || b == 0x29 || b == 0x2A

theorem endsWord_type {b : UInt8} (ends : endsType b = true) : endsWord b = true := by
  simp only [endsType, Bool.or_eq_true, beq_iff_eq] at ends
  obtain (rfl | rfl) | rfl := ends <;> decide

theorem star_ends {b : UInt8} (ends : endsType b = true) : Punct.star.ends b = true := by
  simp only [endsType, Bool.or_eq_true, beq_iff_eq] at ends
  obtain (rfl | rfl) | rfl := ends <;> decide

theorem baseTypes_words : ∀ e ∈ baseTypes, isWord e.1 = true ∧ baseTypes.lookup e.1 = some e.2 ∧ e.2.text = e.1 ∧
    e.1 ≠ "char" ∧ e.1 ≠ "struct" := by
  decide

/-- A type is read back from its text, which may go on with stars. -/
structure TypeRead (structs : List String) (text : Bytes) (ts : List CToken) (t : CType) : Prop where
  spells : Spells endsType text ts
  head : ∃ b ∈ text.head?, isWordStart b = true
  first : ∃ w rest, ts = .word w :: rest ∧ startsType structs w = true
  reads : ∀ rest, readType structs (ts ++ rest) = some (readStars t rest)

section
variable {structs : List String}

theorem word_head {w : String} (word : isWord w = true) : ∃ b ∈ (utf8 w).head?, isWordStart b = true := by
  obtain ⟨b, tail, spelled, starts, -⟩ := bytes_of_isWord word
  exact ⟨b, by rw [spelled]; rfl, starts⟩

theorem TypeRead.ofWord {w : String} {t : CType} (word : isWord w = true) (named : namedType? structs w = some t)
    (other : w ≠ "char" ∧ w ≠ "struct") : TypeRead structs (utf8 w) [.word w] t where
  spells := (Spells.word word).mono fun _ ends => endsWord_type ends
  head := word_head word
  first := ⟨w, [], rfl, by simp [startsType, named]⟩
  reads rest := by simp [readType, other, named]

theorem TypeRead.ptr {text : Bytes} {ts : List CToken} {t : CType} (read : TypeRead structs text ts t) :
    TypeRead structs (text ++ utf8 "*") (ts ++ [CToken.punct .star]) (.ptr t) where
  spells := by
    have star : utf8 "*" = Punct.star.bytes := by simp only [utf8_eq]; decide
    rw [star]
    exact read.spells.append ((Spells.punct .star).mono fun b ends => star_ends ends) (by decide) (by decide)
  head := head_append read.head
  first := by
    obtain ⟨w, rest, rfl, starts⟩ := read.first
    exact ⟨w, _, rfl, starts⟩
  reads rest := by
    rw [List.append_assoc, read.reads]
    rfl

theorem AreStructs.named (known : AreStructs structs) {n : String} (member : n ∈ structs) :
    namedType? structs n = some (.struct n) ∧ n ≠ "char" ∧ n ≠ "struct" := by
  have name := known.names n member
  refine ⟨by simp [namedType?, member], ?_, ?_⟩
  · rintro rfl
    exact absurd name (by decide)
  · rintro rfl
    exact absurd name (by decide)

theorem AreStructs.base (known : AreStructs structs) {w : String} {t : CType} (member : (w, t) ∈ baseTypes) :
    namedType? structs w = some t := by
  have found := (baseTypes_words _ member).2.1
  have fresh : w ∉ structs := by
    intro isStruct
    rw [known.others w isStruct] at found
    cases found
  simp [namedType?, fresh, found]

theorem TypeRead.base (known : AreStructs structs) {t : CType} (member : t ∈ baseTypes.map Prod.snd) :
    ∃ ts, TypeRead structs (utf8 t.text) ts t := by
  obtain ⟨⟨w, t⟩, inside, rfl⟩ := List.mem_map.mp member
  obtain ⟨word, -, spelled, other⟩ := baseTypes_words _ inside
  have spelled : t.text = w := spelled
  rw [spelled]
  exact ⟨_, .ofWord word (known.base inside) other⟩

theorem CType.Proper.read (known : AreStructs structs) : ∀ {t : CType}, t.Proper structs →
    ∃ ts, TypeRead structs (utf8 t.text) ts t.named
  | .struct n, member | .isize, member => by
    obtain ⟨named, other⟩ := known.named member
    exact ⟨_, .ofWord (known.words _ member) named other⟩
  | .ptr t, proper => by
    obtain ⟨ts, read⟩ := CType.Proper.read known (t := t) proper
    rw [CType.text, utf8_append]
    exact ⟨_, read.ptr⟩
  | .anyPtr, _ => by
    obtain ⟨ts, read⟩ := TypeRead.base known (t := .void) (by decide)
    have shape : utf8 (CType.text .anyPtr) = utf8 (CType.text .void) ++ utf8 "*" := by
      rw [← utf8_append]
      rfl
    rw [shape]
    exact ⟨_, read.ptr⟩
  | .str, _ => by
    have shape : utf8 (CType.text .str) = utf8 "char" ++ Punct.star.bytes := by simp only [utf8_eq]; decide
    have word : Spells endsWord (utf8 "char") [.word "char"] := .word (by decide)
    refine ⟨[.word "char", .punct .star], ?_, ⟨0x63, by simp only [utf8_eq]; decide, rfl⟩, ⟨_, _, rfl, rfl⟩, fun rest => rfl⟩
    rw [shape]
    exact word.append ((Spells.punct .star).mono fun b ends => star_ends ends) (by decide) (by decide)
  | .other _, _ => TypeRead.base known (t := .void) (by decide)
  | .void, _ | .u8, _ | .u16, _ | .u32, _ | .u64, _ | .usize, _ | .i8, _ | .i16, _ | .i32, _ | .i64, _ | .f32, _
  | .f64, _ => TypeRead.base known (by decide)

theorem CType.Readable.proper {t : CType} (readable : t.Readable structs) : t.Proper structs ∧ t.named = t := by
  induction t with
  | struct n => exact ⟨readable, rfl⟩
  | ptr t ih =>
    obtain ⟨proper, same⟩ := ih readable
    exact ⟨proper, by rw [named, same]⟩
  | isize | anyPtr | other => exact absurd readable (by simp [CType.Readable, baseTypes])
  | _ => exact ⟨trivial, rfl⟩

/-- Readable types are read back. -/
theorem CType.read (known : AreStructs structs) {t : CType} (readable : t.Readable structs) :
    ∃ ts, TypeRead structs (utf8 t.text) ts t := by
  obtain ⟨proper, same⟩ := readable.proper
  obtain ⟨ts, read⟩ := proper.read known
  rw [same] at read
  exact ⟨ts, read⟩

/-- A type with all its stars. -/
theorem TypeRead.whole {text : Bytes} {ts rest : List CToken} {t : CType} (read : TypeRead structs text ts t)
    (stops : ∀ more, rest ≠ .punct .star :: more) : readType structs (ts ++ rest) = some (t, rest) := by
  rw [read.reads]
  unfold readStars
  split
  · exact absurd rfl (stops _)
  · rfl

/-- A type between parentheses. -/
theorem TypeRead.enclosed {text : Bytes} {ts : List CToken} {t : CType} (read : TypeRead structs text ts t) (rest : List CToken) :
    readType structs (ts ++ .punct .rparen :: rest) = some (t, .punct .rparen :: rest) :=
  read.whole fun _ same => by cases same

end
end PineLang.C
