import PineLang.Proofs.CStmts

/-!
C units are read back from their text: first the directives line by line, then the declarations.
-/
namespace PineLang.C

section
variable {structs : List String} {text : Bytes} {ts : List CToken}

/-! ## Members and parameters -/

variable (structs) in
/-- A typed name that reads as one. -/
structure CParam.Readable (p : CParam) : Prop where
  word : isWord p.name = true
  object : isObjectName structs p.name = true
  type : p.type.Readable structs

theorem memberType_read (known : AreStructs structs) {t : CType} (readable : t.Readable structs) :
    ∃ ts, TypeRead structs (utf8 (memberType t)) ts t := by
  unfold memberType
  split
  · next n =>
    -- The tag in front of the struct's name.
    have member : n ∈ structs := readable
    have keyword : Spells endsWord (utf8 "struct") [.word "struct"] := .word (by decide)
    have tag : utf8 "struct " = utf8 "struct" ++ [0x20] := by simp only [utf8_eq]; decide
    have word : Spells endsType (utf8 n) [.word n] := (Spells.word (known.words n member)).mono fun _ => endsWord_type
    have spaced : Spells endsType ([0x20] ++ utf8 n) ([] ++ [.word n]) := (Spells.space (q := anything) rfl).closed word
    have struct : TypeRead structs (utf8 "struct " ++ utf8 n) [.word "struct", .word n] (.struct n) := by
      refine ⟨?_, head_append ⟨0x73, by simp only [utf8_eq]; decide, rfl⟩, ⟨_, _, rfl, rfl⟩, fun rest => ?_⟩
      · rw [tag, List.append_assoc]
        exact keyword.append spaced (by rintro _ ⟨⟩; rfl) (by simp)
      · simp [readType, readName, known.names n member]
    rw [utf8_append, CType.text, utf8_append, CType.text, ← List.append_assoc]
    exact ⟨_, struct.ptr⟩
  · exact CType.read known readable

theorem CParam.Readable.member (known : AreStructs structs) {p : CParam} (readable : p.Readable structs) :
    ∃ ts, Typed structs (utf8 (memberType p.type ++ " " ++ p.name)) ts p := by
  obtain ⟨ts, type⟩ := memberType_read known readable.type
  rw [String.append_assoc, utf8_append]
  exact ⟨_, type.named readable.word readable.object⟩

theorem CParam.Readable.param (known : AreStructs structs) {p : CParam} (readable : p.Readable structs) :
    ∃ ts, Typed structs (utf8 (p.type.text ++ " " ++ p.name)) ts p := by
  obtain ⟨ts, type⟩ := CType.read known readable.type
  rw [String.append_assoc, utf8_append]
  exact ⟨_, type.named readable.word readable.object⟩

variable (structs) in
/-- The members of a struct read back, with the brace that ends them. -/
structure Members (text : Bytes) (ts : List CToken) (ms : List CParam) : Prop where
  spells : Spells anything text ts
  reads : ∀ n rest, 8 * ts.length + 1 ≤ n → readMembers structs n (ts ++ rest) = some (ms, rest)

theorem Members.none : Members structs (utf8 "\x7d") [.punct .rbrace] [] where
  spells := by
    rw [rbrace_bytes]
    exact .mark (by decide)
  reads n rest enough := by
    obtain ⟨n, rfl⟩ : ∃ k, n = k + 1 := ⟨n - 1, by omega⟩
    simp [readMembers]

theorem Typed.not_first {p : CParam} (typed : Typed structs text ts p) (q : Punct) (rest : List CToken) :
    past (.punct q) (ts ++ rest) = none := by
  obtain ⟨w, more, rfl, -⟩ := typed.first
  simp [past]

theorem Typed.ended {p : CParam} (typed : Typed structs text ts p) {q : Punct} {tail more : Bytes} {us : List CToken}
    (spells : Spells anything more (.punct q :: us)) (head : more = q.bytes ++ tail) (ends : ∀ b ∈ q.bytes.head?, endsWord b = true) :
    Spells anything (text ++ more) (ts ++ .punct q :: us) := by
  obtain ⟨b, others, spelled, -⟩ := bytes_classes q
  refine typed.spells.append spells (fun c member => ends c ?_) (by rw [head, spelled]; simp)
  rw [head, spelled] at member
  rw [spelled]
  exact member

theorem Members.cons {m : CParam} {ms : List CParam} {more : Bytes} {us : List CToken} (typed : Typed structs text ts m)
    (members : Members structs more us ms) :
    Members structs (utf8 "    " ++ text ++ utf8 ";\n" ++ more) (ts ++ .punct .semicolon :: us) (m :: ms) where
  spells := by
    have blanks : utf8 "    " = List.replicate 4 0x20 := by simp only [utf8_eq]; decide
    have ending : utf8 ";\n" = Punct.semicolon.bytes ++ [0x0A] := by simp only [utf8_eq]; decide
    have line : Spells anything (Punct.semicolon.bytes ++ ([0x0A] ++ more)) ([CToken.punct .semicolon] ++ ([] ++ us)) :=
      (Spells.mark (by decide)).closed ((Spells.space (q := anything) rfl).closed members.spells)
    rw [blanks, ending, List.append_assoc, List.append_assoc, List.append_assoc]
    exact (Spells.spaces (q := anything) 4).closed (typed.ended line rfl (by decide))
  reads n rest enough := by
    rw [List.length_append, List.length_cons] at enough
    obtain ⟨n, rfl⟩ : ∃ k, n = k + 1 := ⟨n - 1, by omega⟩
    have readMore := members.reads n rest (by omega)
    rw [List.append_assoc, readMembers, typed.not_first, typed.reads]
    simp [readMore]

theorem members_read (known : AreStructs structs) : ∀ {ms : List CParam}, (∀ m ∈ ms, m.Readable structs) →
    ∃ ts, Members structs (utf8 (String.join (ms.map fun m => "    " ++ memberType m.type ++ " " ++ m.name ++ ";\n")) ++ utf8 "\x7d") ts ms
  | [], _ => by
    simp only [List.map_nil, String.join_nil, utf8_empty, List.nil_append]
    exact ⟨_, .none⟩
  | m :: ms, readable => by
    rw [List.forall_mem_cons] at readable
    obtain ⟨ts, typed⟩ := readable.1.member known
    obtain ⟨us, members⟩ := members_read known readable.2
    obtain ⟨vs, whole⟩ : ∃ vs, Members structs _ vs _ := ⟨_, Members.cons typed members⟩
    exact ⟨vs, by simpa [utf8_append] using whole⟩

variable (structs) in
/-- Further parameters read back with the parenthesis that ends them. -/
structure MoreParams (text : Bytes) (ts : List CToken) (ps : List CParam) : Prop where
  spells : Spells anything text ts
  head : ∃ b ∈ text.head?, endsWord b = true
  reads : ∀ n rest, 8 * ts.length + 1 ≤ n → readMoreParams structs n (ts ++ rest) = some (ps, rest)

variable (structs) in
/-- Parameters read back with the parenthesis that ends them. -/
structure Params (text : Bytes) (ts : List CToken) (ps : List CParam) : Prop where
  spells : Spells anything text ts
  reads : ∀ n rest, 8 * ts.length + 1 ≤ n → readParams structs n (ts ++ rest) = some (ps, rest)

theorem MoreParams.nil : MoreParams structs (utf8 ")") [.punct .rparen] [] where
  spells := .rparen
  head := ⟨0x29, by rw [rparen_bytes]; rfl, rfl⟩
  reads n rest enough := by
    obtain ⟨n, rfl⟩ : ∃ k, n = k + 1 := ⟨n - 1, by omega⟩
    simp [readMoreParams]

theorem Typed.followed {p : CParam} (typed : Typed structs text ts p) {more : Bytes} {us : List CToken}
    (spells : Spells anything more us) (head : ∃ b ∈ more.head?, endsWord b = true) :
    Spells anything (text ++ more) (ts ++ us) := by
  obtain ⟨b, member, known⟩ := head
  refine typed.spells.append spells (fun c other => ?_) ?_
  · rwa [Option.mem_unique other member]
  · rintro rfl
    cases member

theorem comma_bytes : utf8 ", " = Punct.comma.bytes ++ [0x20] := by simp only [utf8_eq]; decide

theorem Spells.comma : Spells anything (utf8 ", ") [.punct .comma] := by
  rw [comma_bytes]
  exact (Spells.mark (p := .comma) (by decide)).closed (.space rfl)

theorem MoreParams.cons {p : CParam} {ps : List CParam} {more : Bytes} {us : List CToken} (typed : Typed structs text ts p)
    (others : MoreParams structs more us ps) :
    MoreParams structs (utf8 ", " ++ (text ++ more)) (.punct .comma :: (ts ++ us)) (p :: ps) where
  spells := Spells.comma.closed (typed.followed others.spells others.head)
  head := head_append ⟨0x2C, by rw [comma_bytes]; rfl, rfl⟩
  reads n rest enough := by
    simp only [List.length_cons, List.length_append] at enough
    obtain ⟨n, rfl⟩ : ∃ k, n = k + 1 := ⟨n - 1, by omega⟩
    have notEnd : past (.punct .rparen) (.punct .comma :: (ts ++ us ++ rest)) = none := by simp [past]
    have readMore := others.reads n rest (by omega)
    rw [List.cons_append, readMoreParams, notEnd, List.append_assoc]
    simp [typed.reads, readMore]

theorem Params.nil : Params structs (utf8 "void" ++ utf8 ")") [.word "void", .punct .rparen] [] where
  spells := by
    have word : Spells endsWord (utf8 "void") [.word "void"] := .word (by decide)
    refine word.append .rparen ?_ ?_
    · rw [rparen_bytes]
      decide
    · rw [rparen_bytes]
      decide
  reads n rest _ := by simp [readParams]

/-- A parameter has a name behind its type, so it does not start with `void` alone. -/
theorem Typed.not_void (known : AreStructs structs) {p : CParam} (typed : Typed structs text ts p) (rest : List CToken) :
    (past (.word "void") (ts ++ rest)).bind (past (.punct .rparen)) = none := by
  by_contra void
  obtain ⟨after, both⟩ := Option.ne_none_iff_exists'.mp void
  obtain ⟨behind, isVoid, closes⟩ := Option.bind_eq_some_iff.mp both
  have head : ts ++ rest = .word "void" :: .punct .rparen :: after := by
    cases shape : ts ++ rest with
    | nil =>
      rw [shape] at isVoid
      cases isVoid
    | cons t others =>
      rw [shape] at isVoid
      obtain ⟨rfl, same⟩ := Option.ite_none_right_eq_some.mp isVoid
      cases same
      cases behind with
      | nil => cases closes
      | cons u behind =>
        obtain ⟨rfl, same⟩ := Option.ite_none_right_eq_some.mp closes
        cases same
        rfl
  have read := typed.reads rest
  have named : namedType? structs "void" = some .void := known.base (by decide)
  rw [head] at read
  simp [readTyped, readType, named, readStars, readObject] at read

theorem Params.cons (known : AreStructs structs) {p : CParam} {ps : List CParam} {more : Bytes} {us : List CToken}
    (typed : Typed structs text ts p) (others : MoreParams structs more us ps) :
    Params structs (text ++ more) (ts ++ us) (p :: ps) where
  spells := typed.followed others.spells others.head
  reads n rest enough := by
    rw [List.length_append] at enough
    have readMore := others.reads n rest (by omega)
    rw [List.append_assoc, readParams, typed.not_void known]
    simp [typed.reads, readMore]

theorem moreParams_read (known : AreStructs structs) : ∀ {ps : List CParam}, (∀ p ∈ ps, p.Readable structs) →
    ∃ ts, MoreParams structs ((ps.flatMap fun p => utf8 ", " ++ utf8 (p.type.text ++ " " ++ p.name)) ++ utf8 ")") ts ps
  | [], _ => ⟨_, .nil⟩
  | p :: ps, readable => by
    rw [List.forall_mem_cons] at readable
    obtain ⟨ts, typed⟩ := readable.1.param known
    obtain ⟨us, others⟩ := moreParams_read known readable.2
    rw [List.flatMap_cons, List.append_assoc, List.append_assoc]
    exact ⟨_, .cons typed others⟩

theorem utf8_intercalate (word : String) : ∀ (s : String) (ss : List String),
    utf8 (word.intercalate (s :: ss)) = utf8 s ++ ss.flatMap fun s => utf8 word ++ utf8 s
  | s, [] => by simp
  | s, t :: ss => by
    rw [String.intercalate_cons_cons, utf8_append, utf8_append, utf8_intercalate word t ss, List.flatMap_cons, List.append_assoc,
      List.append_assoc]

theorem params_read (known : AreStructs structs) {ps : List CParam} (readable : ∀ p ∈ ps, p.Readable structs) :
    ∃ ts, Params structs (utf8 (paramsText ps) ++ utf8 ")") ts ps := by
  cases ps with
  | nil => exact ⟨_, .nil⟩
  | cons p ps =>
    rw [List.forall_mem_cons] at readable
    obtain ⟨ts, typed⟩ := readable.1.param known
    obtain ⟨us, others⟩ := moreParams_read known readable.2
    have shape : utf8 (paramsText (p :: ps)) = utf8 (p.type.text ++ " " ++ p.name) ++
        ps.flatMap fun p => utf8 ", " ++ utf8 (p.type.text ++ " " ++ p.name) := by
      rw [paramsText, List.isEmpty_cons, if_neg Bool.false_ne_true, List.map_cons, utf8_intercalate, List.flatMap_map]
    rw [shape, List.append_assoc]
    exact ⟨_, .cons known typed others⟩

/-! ## Declarations -/

variable (structs) in
/-- Declarations with a text of their own: structs, and functions whose bodies have one. -/
inductive Decl.Readable : Decl → Prop
  | struct {n : String} {ms : List CParam} (isStruct : n ∈ structs) (members : ∀ m ∈ ms, m.Readable structs) :
    Readable (.struct n ms)
  | prototype {n : String} {ps : List CParam} {r : CType} (word : isWord n = true) (object : isObjectName structs n = true)
      (params : ∀ p ∈ ps, p.Readable structs) (ret : r.Readable structs) : Readable (.fn n ps r none)
  | definition {n : String} {ps : List CParam} {r : CType} {ss : List CStmt} (word : isWord n = true)
      (object : isObjectName structs n = true) (params : ∀ p ∈ ps, p.Readable structs) (ret : r.Readable structs)
      (body : ∀ s ∈ ss, s.Readable structs) : Readable (.fn n ps r (some ss))

variable (structs) in
/-- A declaration read back. -/
structure Declared (text : Bytes) (ts : List CToken) (d : Decl) : Prop where
  spells : Spells anything text ts
  head : ∃ b ∈ text.head?, isWordStart b = true
  nonempty : ts ≠ []
  reads : ∀ n rest, 8 * ts.length ≤ n + 4 → readDecl structs n (ts ++ rest) = some (d, rest)

theorem Declared.struct (known : AreStructs structs) {n : String} (isStruct : n ∈ structs) {ms : List CParam}
    (members : Members structs text ts ms) :
    Declared structs (utf8 "typedef struct " ++ (utf8 n ++ (utf8 " \x7b\n" ++ (text ++ (utf8 " " ++ (utf8 n ++ utf8 ";\n"))))))
      (.word "typedef" :: .word "struct" :: .word n :: .punct .lbrace :: (ts ++ [CToken.word n, CToken.punct .semicolon])) (.struct n ms) where
  spells := by
    have word := Spells.word (known.words n isStruct)
    have opening : utf8 "typedef struct " = utf8 ("typedef" ++ " ") ++ utf8 ("struct" ++ " ") := by simp only [utf8_eq]; decide
    have brace : utf8 " \x7b\n" = [0x20] ++ (Punct.lbrace.bytes ++ [0x0A]) := by simp only [utf8_eq]; decide
    have blank : utf8 " " = [0x20] := by simp only [utf8_eq]; decide
    have ending : utf8 ";\n" = Punct.semicolon.bytes ++ [0x0A] := by simp only [utf8_eq]; decide
    have last : Spells anything (utf8 n ++ (Punct.semicolon.bytes ++ [0x0A])) ([CToken.word n] ++ ([CToken.punct .semicolon] ++ [])) :=
      word.append ((Spells.mark (by decide)).closed (.space rfl)) (by decide) (by decide)
    have opened : Spells anything ([0x20] ++ (Punct.lbrace.bytes ++ [0x0A])) ([] ++ ([CToken.punct .lbrace] ++ [])) :=
      (Spells.space (q := anything) rfl).closed ((Spells.mark (p := .lbrace) (by decide)).closed (.space rfl))
    have named : Spells anything ([0x20] ++ (utf8 n ++ (Punct.semicolon.bytes ++ [0x0A])))
        ([] ++ ([CToken.word n] ++ ([CToken.punct .semicolon] ++ []))) := (Spells.space (q := anything) rfl).closed last
    have inner := opened.closed (members.spells.closed named)
    rw [opening, brace, blank, ending, List.append_assoc]
    exact (Spells.keywordBlank (w := "typedef") (by decide)).closed
      ((Spells.keywordBlank (w := "struct") (by decide)).closed
        (word.append inner (by rintro _ ⟨⟩; rfl) (by simp)))
  head := head_append ⟨0x74, by simp only [utf8_eq]; decide, rfl⟩
  nonempty := nofun
  reads m rest enough := by
    simp only [List.length_cons, List.length_append, List.length_nil] at enough
    have read := members.reads m (.word n :: .punct .semicolon :: rest) (by omega)
    simp only [List.cons_append, List.append_assoc, List.nil_append]
    simp [readDecl, readStruct, readName, known.names n isStruct, read]

variable (structs) in
/-- What stands behind a function's parameters read back. -/
structure Ending (text : Bytes) (ts : List CToken) (body : Option (List CStmt)) : Prop where
  spells : Spells anything text ts
  reads : ∀ n rest, 8 * ts.length ≤ n → readBody structs n (ts ++ rest) = some (body, rest)

theorem Ending.prototype : Ending structs (utf8 ";\n") [.punct .semicolon] none where
  spells := by
    have ending : utf8 ";\n" = Punct.semicolon.bytes ++ [0x0A] := by simp only [utf8_eq]; decide
    rw [ending]
    exact (Spells.mark (p := .semicolon) (by decide)).closed (.space rfl)
  reads n rest _ := by simp [readBody]

theorem Ending.definition {ss : List CStmt} (items : Items structs text ts ss) :
    Ending structs (utf8 " " ++ (utf8 "\x7b\n" ++ text) ++ utf8 "\n") (.punct .lbrace :: ts) (some ss) where
  spells := by
    have blank : utf8 " " = [0x20] := by simp only [utf8_eq]; decide
    have whole := ((Spells.space (q := anything) (b := 0x20) rfl).closed items.opened).closed Spells.newline
    rwa [List.append_nil, ← blank] at whole
  reads n rest enough := by
    rw [List.length_cons] at enough
    have read := items.reads n rest (by omega)
    have notEnd : past (.punct .semicolon) (.punct .lbrace :: (ts ++ rest)) = none := by simp [past]
    rw [List.cons_append, readBody, notEnd]
    simp [read]

theorem startsType_typedef (known : AreStructs structs) : startsType structs "typedef" = false :=
  keyword_untyped known (by decide) (by decide)

theorem Declared.fn (known : AreStructs structs) {p : CParam} (typed : Typed structs text ts p) {params ending : Bytes} {us vs : List CToken} {ps : List CParam}
    {body : Option (List CStmt)} (parameters : Params structs params us ps) (behind : Ending structs ending vs body) :
    Declared structs (text ++ (utf8 "(" ++ (params ++ ending))) (ts ++ .punct .lparen :: (us ++ vs)) (.fn p.name ps p.type body) where
  spells := by
    have opening : utf8 "(" = Punct.lparen.bytes := by simp only [utf8_eq]; decide
    have rest : Spells anything (Punct.lparen.bytes ++ (params ++ ending)) ([CToken.punct .lparen] ++ (us ++ vs)) :=
      (Spells.mark (by decide)).closed (parameters.spells.closed behind.spells)
    rw [opening]
    exact typed.followed rest (head_append ⟨0x28, rfl, rfl⟩)
  head := head_append typed.head
  nonempty := by
    obtain ⟨w, more, rfl, -⟩ := typed.first
    nofun
  reads n rest enough := by
    simp only [List.length_append, List.length_cons] at enough
    have noTypedef : past (.word "typedef") (ts ++ (.punct .lparen :: (us ++ (vs ++ rest)))) = none := by
      obtain ⟨w, more, rfl, starts⟩ := typed.first
      refine past_other ?_ _
      rintro ⟨⟩
      rw [startsType_typedef known] at starts
      cases starts
    have readParameters := parameters.reads n (vs ++ rest) (by omega)
    have readBehind := behind.reads n rest (by omega)
    simp only [List.append_assoc, List.cons_append]
    rw [readDecl, noTypedef]
    simp [typed.reads, readParameters, readBehind]

/-- Readable declarations are read back. -/
theorem Decl.Readable.read (known : AreStructs structs) {d : Decl} (readable : d.Readable structs) : ∃ ts, Declared structs d.text ts d := by
  cases readable with
  | @struct n ms isStruct members =>
    obtain ⟨ts, read⟩ := members_read known members
    obtain ⟨us, whole⟩ : ∃ us, Declared structs _ us _ := ⟨_, Declared.struct known isStruct read⟩
    have brace : utf8 "\x7d " = utf8 "\x7d" ++ utf8 " " := by simp only [utf8_eq]; decide
    exact ⟨us, by simpa [Decl.text, brace] using whole⟩
  | @prototype n ps r word object params ret =>
    obtain ⟨ts, typed⟩ := CParam.Readable.param known (p := ⟨n, r⟩) ⟨word, object, ret⟩
    obtain ⟨us, parameters⟩ := params_read known params
    obtain ⟨vs, whole⟩ : ∃ vs, Declared structs _ vs _ := ⟨_, Declared.fn known typed parameters .prototype⟩
    exact ⟨vs, by simpa [Decl.text] using whole⟩
  | @definition n ps r ss word object params ret body =>
    obtain ⟨ts, typed⟩ := CParam.Readable.param known (p := ⟨n, r⟩) ⟨word, object, ret⟩
    obtain ⟨us, parameters⟩ := params_read known params
    obtain ⟨os, items⟩ := items_read known body 0 1
    obtain ⟨vs, whole⟩ : ∃ vs, Declared structs _ vs _ := ⟨_, Declared.fn known typed parameters (.definition items)⟩
    exact ⟨vs, by simpa [Decl.text, CStmt.text] using whole⟩

variable (structs) in
/-- Declarations read back to the end. -/
structure DeclsRead (text : Bytes) (ts : List CToken) (ds : List Decl) : Prop where
  spells : Spells anything text ts
  reads : ∀ n, 8 * ts.length ≤ n → readDecls structs n ts = some ds

theorem DeclsRead.cons {d : Decl} {ds : List Decl} {more : Bytes} {us : List CToken} (declared : Declared structs text ts d)
    (others : DeclsRead structs more us ds) : DeclsRead structs (text ++ more) (ts ++ us) (d :: ds) where
  spells := declared.spells.closed others.spells
  reads n enough := by
    obtain ⟨t, inner, rfl⟩ := List.exists_cons_of_ne_nil declared.nonempty
    simp only [List.length_append, List.length_cons] at enough
    obtain ⟨n, rfl⟩ : ∃ k, n = k + 1 := ⟨n - 1, by omega⟩
    have read := declared.reads n us (by rw [List.length_cons]; omega)
    rw [List.cons_append] at read
    rw [List.cons_append, readDecls, read]
    simp [others.reads n (by omega)]

theorem decls_read (known : AreStructs structs) : ∀ {ds : List Decl}, (∀ d ∈ ds, d.Readable structs) →
    ∃ ts, DeclsRead structs ((utf8 "\n").intercalate (ds.map Decl.text)) ts ds
  | [], _ => ⟨[], .nil, fun n _ => by cases n <;> rfl⟩
  | d :: ds, readable => by
    rw [List.forall_mem_cons] at readable
    obtain ⟨ts, declared⟩ := readable.1.read known
    obtain ⟨us, others⟩ := decls_read known readable.2
    cases ds with
    | nil =>
      obtain ⟨vs, whole⟩ : ∃ vs, DeclsRead structs _ vs _ := ⟨_, .cons declared others⟩
      exact ⟨vs, by simpa using whole⟩
    | cons e es =>
      have spaced : DeclsRead structs (utf8 "\n" ++ (utf8 "\n").intercalate ((e :: es).map Decl.text)) us (e :: es) :=
        ⟨Spells.newline.closed others.spells, others.reads⟩
      obtain ⟨vs, whole⟩ : ∃ vs, DeclsRead structs _ vs _ := ⟨_, .cons declared spaced⟩
      exact ⟨vs, by simpa [List.intercalate_cons_cons] using whole⟩

/-! ## Directives -/

/-- The sign that ends the name of a header. -/
def Include.closing (i : Include) : UInt8 := if i.system then 0x3E else 0x22

/-- The name of the header does not end early. -/
structure Include.Readable (i : Include) : Prop where
  inLine : 0x0A ∉ utf8 i.name
  closes : i.closing ∉ utf8 i.name

theorem headerName_read {name : String} {closing : UInt8} (open_ : closing ∉ utf8 name) :
    headerName closing (utf8 name ++ [closing]) = some name := by
  have before : ∀ b ∈ utf8 name, (b != closing) = true := by
    intro b member
    rw [bne_iff_ne]
    rintro rfl
    exact open_ member
  have rest : (utf8 name ++ [closing]).dropWhile (· != closing) = [closing] := by
    rw [List.dropWhile_append_of_pos before]
    simp
  have taken : (utf8 name ++ [closing]).takeWhile (· != closing) = utf8 name := by
    rw [List.takeWhile_append_of_pos before]
    simp
  rw [headerName, if_pos rest, taken, string_utf8]

theorem behind_append (head : String) (line : Bytes) : behind head (asciiBytes head.toList ++ line) = some line := by
  have width : (asciiBytes head.toList).length = head.length := by rw [asciiBytes, List.length_map, String.length_toList]
  have fits : (asciiBytes head.toList).isPrefixOf (asciiBytes head.toList ++ line) = true :=
    List.isPrefixOf_iff_prefix.mpr (List.prefix_append _ _)
  rw [behind, if_pos fits, ← width, List.drop_left]

/-- The line that includes a header. -/
def Include.line (i : Include) : Bytes :=
  (if i.system then asciiBytes "#include <".toList else asciiBytes "#include \"".toList) ++ (utf8 i.name ++ [i.closing])

theorem Include.text_eq (i : Include) : utf8 i.text = i.line ++ [0x0A] := by
  have system : utf8 "#include <" = asciiBytes "#include <".toList ∧ utf8 ">\n" = [0x3E, 0x0A] := by simp only [utf8_eq]; decide
  have own : utf8 "#include \"" = asciiBytes "#include \"".toList ∧ utf8 "\"\n" = [0x22, 0x0A] := by simp only [utf8_eq]; decide
  obtain ⟨name, _ | _⟩ := i
  · simp [Include.text, Include.line, Include.closing, own]
  · simp [Include.text, Include.line, Include.closing, system]

theorem Include.read {i : Include} (readable : i.Readable) : 0x0A ∉ i.line ∧ i.line.head? = some 0x23 ∧
    directive? i.line = some (.includes i) := by
  have name := headerName_read readable.closes
  have inLine : 0x0A ∉ asciiBytes "#include <".toList ∧ 0x0A ∉ asciiBytes "#include \"".toList := by decide
  have notOnce {pre more : Bytes} (second : pre[1]? = some 0x69) : pre ++ more ≠ asciiBytes "#pragma once".toList := by
    intro same
    have char : (pre ++ more)[1]? = some 0x70 := by rw [same]; rfl
    rw [List.getElem?_append_left (List.getElem?_eq_some_iff.mp second).1, second] at char
    cases char
  obtain ⟨n, _ | _⟩ := i
  · have line : Include.line ⟨n, false⟩ = asciiBytes "#include \"".toList ++ (utf8 n ++ [0x22]) := rfl
    have other : behind "#include <" (asciiBytes "#include \"".toList ++ (utf8 n ++ [0x22])) = none := rfl
    refine ⟨?_, rfl, ?_⟩
    · rw [line]
      simp only [List.mem_append, List.mem_singleton, not_or]
      exact ⟨inLine.2, readable.inLine, by decide⟩
    · rw [line, directive?, if_neg (notOnce rfl), other, behind_append]
      simpa [Include.closing] using name
  · have line : Include.line ⟨n, true⟩ = asciiBytes "#include <".toList ++ (utf8 n ++ [0x3E]) := rfl
    refine ⟨?_, rfl, ?_⟩
    · rw [line]
      simp only [List.mem_append, List.mem_singleton, not_or]
      exact ⟨inLine.1, readable.inLine, by decide⟩
    · rw [line, directive?, if_neg (notOnce rfl), behind_append]
      simpa [Include.closing] using name

theorem directives_line {line : Bytes} {d : Directive} (inLine : 0x0A ∉ line) (head : line.head? = some 0x23)
    (known : directive? line = some d) {rest : Bytes} {ds : List Directive} {lines : List Bytes}
    (read : directives (rest.splitOn 0x0A) = some (ds, lines)) :
    directives ((line ++ 0x0A :: rest).splitOn 0x0A) = some (d :: ds, lines) := by
  have notBlank : line.all isSpace = false := by
    cases line with
    | nil => cases head
    | cons b line =>
      cases head
      rfl
  rw [List.splitOn_append_cons_self_of_not_mem inLine, directives, notBlank, if_neg Bool.false_ne_true, if_pos head, known, read]
  rfl

theorem directives_blank (rest : Bytes) : directives ((0x0A :: rest).splitOn 0x0A) = directives (rest.splitOn 0x0A) := by
  have split : ([] ++ (0x0A : UInt8) :: rest).splitOn 0x0A = [] :: rest.splitOn 0x0A :=
    List.splitOn_append_cons_self_of_not_mem List.not_mem_nil rest
  rw [List.nil_append] at split
  rw [split, directives]
  exact if_pos rfl

/-- What follows the directives is left as it is. -/
theorem directives_end (noDirective : ∀ b ∈ text.head?, isWordStart b = true) :
    ∃ lines, directives (text.splitOn 0x0A) = some ([], lines) ∧ [0x0A].intercalate lines = text := by
  cases text with
  | nil => exact ⟨[], rfl, rfl⟩
  | cons b tail =>
    have starts := noDirective b rfl
    have classes : isSpace b = false ∧ b ≠ 0x23 ∧ b ≠ 0x0A := by
      simp only [isWordStart, isSpace, Bool.or_eq_true, Bool.and_eq_true, decide_eq_true_eq, beq_iff_eq] at starts ⊢
      grind
    have whole : [0x0A].intercalate ((b :: tail).splitOn 0x0A) = b :: tail := List.intercalate_splitOn 0x0A
    refine ⟨_, ?_, whole⟩
    obtain ⟨line, lines, split⟩ := List.exists_cons_of_ne_nil (List.splitOn_ne_nil 0x0A (b :: tail))
    obtain ⟨first, shape⟩ : ∃ first, line = b :: first := by
      rw [split] at whole
      cases line with
      | cons c first =>
        cases lines with
        | nil => exact ⟨first, by simp at whole; rw [whole.1]⟩
        | cons l lines =>
          rw [List.intercalate_cons_cons] at whole
          exact ⟨first, by rw [(List.cons.inj whole).1]⟩
      | nil =>
        cases lines with
        | nil => cases whole
        | cons l lines =>
          rw [List.intercalate_cons_cons] at whole
          exact absurd (List.cons.inj whole).1.symm classes.2.2
    rw [split, shape, directives, List.all_cons, classes.1, Bool.false_and, if_neg Bool.false_ne_true, if_neg (by simpa using classes.2.1)]

/-! ## Units -/

variable (structs) in
/-- Units with a text of their own. -/
structure CUnit.Readable (u : CUnit) : Prop where
  includes : ∀ i ∈ u.includes, i.Readable
  decls : ∀ d ∈ u.decls, d.Readable structs

theorem directives_includes {rest : Bytes} {lines : List Bytes} (read : directives (rest.splitOn 0x0A) = some ([], lines)) :
    ∀ {is : List Include}, (∀ i ∈ is, i.Readable) →
      directives ((utf8 (String.join (is.map Include.text)) ++ rest).splitOn 0x0A) = some (is.map .includes, lines)
  | [], _ => by simpa using read
  | i :: is, readable => by
    rw [List.forall_mem_cons] at readable
    obtain ⟨inLine, head, known⟩ := Include.read readable.1
    have others := directives_includes read readable.2
    rw [List.map_cons, String.join_cons, utf8_append, i.text_eq, List.append_assoc, List.append_assoc]
    exact directives_line inLine head known others

theorem decls_head (known : AreStructs structs) {ds : List Decl} (readable : ∀ d ∈ ds, d.Readable structs) :
    ∀ b ∈ ((utf8 "\n").intercalate (ds.map Decl.text)).head?, isWordStart b = true := by
  cases ds with
  | nil => nofun
  | cons d ds =>
    obtain ⟨ts, declared⟩ := (readable d (List.mem_cons_self ..)).read known
    have first : ∃ b ∈ ((utf8 "\n").intercalate ((d :: ds).map Decl.text)).head?, isWordStart b = true := by
      cases ds with
      | nil => simpa using declared.head
      | cons e es =>
        rw [List.map_cons, List.map_cons, List.intercalate_cons_cons, List.append_assoc]
        exact head_append declared.head
    obtain ⟨b, member, starts⟩ := first
    intro c other
    rwa [Option.mem_unique other member]

theorem onceLines (isHeader : Bool) {rest : Bytes} {ds : List Directive} {lines : List Bytes}
    (read : directives (rest.splitOn 0x0A) = some (ds, lines)) :
    directives ((utf8 (if isHeader then "#pragma once\n\n" else "") ++ rest).splitOn 0x0A) =
      some ((if isHeader then [Directive.once] else []) ++ ds, lines) := by
  cases isHeader with
  | false => simpa using read
  | true =>
    have text : utf8 "#pragma once\n\n" = asciiBytes "#pragma once".toList ++ [0x0A, 0x0A] := by simp only [utf8_eq]; decide
    have blank := directives_blank rest
    rw [read] at blank
    rw [if_pos rfl, text, List.append_assoc]
    exact directives_line (by decide) rfl (by rw [directive?, if_pos rfl]) blank

/-- The directives of a unit. -/
def CUnit.directives (u : CUnit) : List Directive := (if u.isHeader then [Directive.once] else []) ++ u.includes.map .includes

theorem CUnit.directives_parts (u : CUnit) :
    u.directives.any Directive.isOnce = u.isHeader ∧ u.directives.filterMap Directive.include? = u.includes := by
  have names : (u.includes.map Directive.includes).filterMap Directive.include? = u.includes := by
    rw [List.filterMap_map]
    exact List.filterMap_some
  cases shape : u.isHeader with
  | false => simp [CUnit.directives, shape, Directive.isOnce, names]
  | true =>
    have once : (Directive.once :: u.includes.map Directive.includes).filterMap Directive.include? = u.includes := by
      rw [List.filterMap_cons_none rfl, names]
    simp [CUnit.directives, shape, Directive.isOnce, once]

/-- Readable units are read back whole. -/
theorem CUnit.Readable.read (known : AreStructs structs) {u : CUnit} (readable : u.Readable structs) :
    readUnit structs u.name u.text = some u := by
  obtain ⟨ts, decls⟩ := decls_read known readable.decls
  obtain ⟨lines, stopped, same⟩ := directives_end (decls_head known readable.decls)
  have behindIncludes : C.directives (((if u.includes.isEmpty || u.decls.isEmpty then [] else utf8 "\n") ++
      (utf8 "\n").intercalate (u.decls.map Decl.text)).splitOn 0x0A) = some ([], lines) := by
    have newline : utf8 "\n" = [0x0A] := by simp only [utf8_eq]; decide
    split
    · exact stopped
    · rw [newline, List.singleton_append, directives_blank, ← newline]
      exact stopped
  have read := onceLines u.isHeader (directives_includes behindIncludes readable.includes)
  have whole : C.directives (u.text.splitOn 0x0A) = some (u.directives, lines) := by
    simpa only [CUnit.text, CUnit.directives, List.append_assoc] using read
  have fuel : readDecls structs (16 * ts.length) ts = some u.decls := decls.reads _ (by omega)
  rw [readUnit, whole]
  simp only [Option.bind_eq_bind, Option.bind_some, same, decls.spells.whole, fuel, u.directives_parts]

end
end PineLang.C
