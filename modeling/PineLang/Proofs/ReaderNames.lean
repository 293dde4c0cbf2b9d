import PineLang.Proofs.CUnits
import PineLang.Proofs.CodeSites
import PineLang.Proofs.WordNames

/-!
What the reader of C text never gives: an expression with an identifier that means a type, whatever the
tokens are (`readsNamed`), and so no unit with such an expression (`readUnit_named`); nor a unit that includes
a header whose name would end early (`readUnit_includes`).
-/
namespace PineLang

namespace Text

/-! ## ASCII characters -/

theorem toNat_ofNat_of_pos {n : Nat} (some : 0 < (Char.ofNat n).toNat) : (Char.ofNat n).toNat = n := by
  by_cases valid : n.isValidChar
  · rw [Char.ofNat, dif_pos valid]
    rfl
  · have zero : (Char.ofNat n).toNat = 0 := by simp [Char.ofNat, valid, Char.toNat]
    omega

/-- Nothing but an ASCII byte is decoded as an ASCII character. -/
theorem decodeHead_ascii {a : UInt8} {rest : Bytes} (some : 0 < (decodeHead (a :: rest)).1.toNat)
    (ascii : (decodeHead (a :: rest)).1.toNat < 0x80) : (decodeHead (a :: rest)).1.toNat = a.toNat := by
  have head := decodeHead_head a rest
  generalize decodeHead (a :: rest) = r at *
  cases head with
  | ascii _ => exact toNat_ofNat_of_pos some
  | stray _ => exact absurd ascii (by decide)
  | longer _ valid beyond _ _ =>
    rw [toNat_ofNat valid] at ascii
    exact absurd beyond (Nat.not_le_of_lt ascii)

/-- An ASCII character of a text stands in the text as a byte. -/
theorem unitsFrom_ascii {c : Char} (some : 0 < c.toNat) (ascii : c.toNat < 0x80) : ∀ {bs : Bytes} {skip : Nat},
    c ∈ (unitsFrom skip bs).map Unit8.toChar → UInt8.ofNat c.toNat ∈ bs
  | [], skip, member => by cases skip <;> cases member
  | b :: bs, skip + 1, member => List.mem_cons_of_mem b (unitsFrom_ascii some ascii member)
  | b :: bs, 0, member => by
    rw [Lexer.units_cons] at member
    rcases List.mem_cons.mp member with same | later
    · have code : c.toNat = b.toNat := by
        rw [same] at some ascii ⊢
        exact decodeHead_ascii some ascii
      rw [code, UInt8.ofNat_toNat]
      exact List.mem_cons_self ..
    · exact List.mem_cons_of_mem b (unitsFrom_ascii some ascii later)

/-- Decoding adds no ASCII bytes. -/
theorem ascii_mem_of_string {bs : Bytes} {s : String} (decoded : string? bs = some s) {b : UInt8} (some : 0 < b)
    (ascii : b < 0x80) (member : b ∈ utf8 s) : b ∈ bs := by
  unfold string? at decoded
  split at decoded
  · cases decoded
    rw [utf8_eq, lossy, String.toList_ofList] at member
    obtain ⟨c, inside, encoded⟩ := List.mem_flatMap.mp member
    have small : c.toNat < 0x80 := by
      by_contra beyond
      have large := C.encode_large (c := c) (by omega) b encoded
      rw [UInt8.le_iff_toNat_le] at large
      rw [UInt8.lt_iff_toNat_lt] at ascii
      omega
    rw [C.encode_small small, List.mem_singleton] at encoded
    have positive : 0 < c.toNat := by
      rcases Nat.eq_zero_or_pos c.toNat with zero | positive
      · rw [encoded, zero] at some
        exact absurd some (by decide)
      · exact positive
    rw [encoded]
    exact unitsFrom_ascii positive small inside
  · cases decoded

end Text

namespace C

section
variable {structs : List String}

/-! ## Expressions -/

variable (structs) in
/-- Each identifier in the expression is the name of an object. -/
def CExpr.Named (x : CExpr) : Prop := ∀ n ∈ x.idents, isObjectName structs n = true

theorem named_nothing {x : CExpr} (none : x.idents = []) : x.Named structs := by simp [CExpr.Named, none]

theorem named_both {x a b : CExpr} (parts : x.idents = a.idents ++ b.idents) (left : a.Named structs) (right : b.Named structs) :
    x.Named structs := by
  rw [CExpr.Named, parts, List.forall_mem_append]
  exact ⟨left, right⟩

theorem argIdents_named : ∀ {xs : List CExpr}, (∀ x ∈ xs, x.Named structs) → ∀ n ∈ argIdents xs, isObjectName structs n = true
  | [], _ => List.forall_mem_nil _
  | x :: xs, each => by
    rw [List.forall_mem_cons] at each
    rw [argIdents, List.forall_mem_append]
    exact ⟨each.1, argIdents_named each.2⟩

theorem readAtom_named {ts rest : List CToken} {x : CExpr} (read : readAtom structs ts = some (x, rest)) : x.Named structs := by
  unfold readAtom at read
  split at read
  · split at read
    · next object =>
      cases read
      exact List.forall_mem_singleton.mpr object
    · cases read
  · obtain ⟨_, -, same⟩ := Option.map_eq_some_iff.mp read
    cases same
    exact named_nothing rfl
  · obtain ⟨_, -, same⟩ := Option.map_eq_some_iff.mp read
    cases same
    exact named_nothing rfl
  · cases read

variable (structs) in
/-- What is read with this much fuel has only names of objects. -/
structure ReadsNamed (fuel : Nat) : Prop where
  expr : ∀ {ts rest x}, readExpr structs fuel ts = some (x, rest) → x.Named structs
  binary : ∀ {least left ts rest x}, left.Named structs → readBinary structs fuel least left ts = some (x, rest) → x.Named structs
  cast : ∀ {ts rest assignable x}, readCast structs fuel ts = some (assignable, x, rest) → x.Named structs
  suffixes : ∀ {x ts rest y}, x.Named structs → readSuffixes structs fuel x ts = some (y, rest) → y.Named structs
  args : ∀ {ts rest xs}, readArgs structs fuel ts = some (xs, rest) → ∀ x ∈ xs, x.Named structs
  moreArgs : ∀ {ts rest xs}, readMoreArgs structs fuel ts = some (xs, rest) → ∀ x ∈ xs, x.Named structs

theorem readsNamed : ∀ fuel, ReadsNamed structs fuel
  | 0 => by constructor <;> intros <;> contradiction
  | fuel + 1 => by
    have ih := readsNamed fuel
    constructor
    case expr =>
      intro ts rest x read
      simp only [readExpr, Option.bind_eq_bind, Option.bind_eq_some_iff] at read
      obtain ⟨⟨assignable, left, behind⟩, operand, more⟩ := read
      have first := ih.cast operand
      split at more
      · exact ih.binary first more
      split at more
      · cases more
      · obtain ⟨⟨right, _⟩, value, same⟩ := Option.bind_eq_some_iff.mp more
        cases same
        exact named_both rfl first (ih.expr value)
    case binary =>
      intro least left ts rest x first read
      rw [readBinary] at read
      split at read
      · cases read
        exact first
      · split at read
        · cases read
          exact first
        · simp only [Option.bind_eq_bind, Option.bind_eq_some_iff] at read
          obtain ⟨⟨_, operand, _⟩, second, ⟨right, _⟩, further, more⟩ := read
          exact ih.binary (named_both rfl first (ih.binary (ih.cast second) further)) more
    case cast =>
      intro ts rest assignable x read
      rw [readCast] at read
      split at read
      · simp only [Option.bind_eq_bind, Option.bind_eq_some_iff] at read
        obtain ⟨⟨assignable', operand, _⟩, inner, same⟩ := read
        split at same
        · cases same
        · cases same
          exact ih.cast (x := operand) inner
      split at read
      · simp only [Option.bind_eq_bind, Option.bind_eq_some_iff] at read
        obtain ⟨_, -, _, -, same⟩ := read
        cases same
        exact named_nothing rfl
      split at read
      · split at read
        · simp only [Option.bind_eq_bind, Option.bind_eq_some_iff] at read
          obtain ⟨_, -, _, -, ⟨assignable', operand, _⟩, inner, same⟩ := read
          cases same
          exact ih.cast (x := operand) inner
        · simp only [Option.bind_eq_bind, Option.bind_eq_some_iff, Option.map_eq_some_iff] at read
          obtain ⟨⟨inner, _⟩, group, _, -, ⟨y, _⟩, behind, same⟩ := read
          cases same
          exact ih.suffixes (ih.expr group) behind
      · simp only [Option.bind_eq_bind, Option.bind_eq_some_iff, Option.map_eq_some_iff] at read
        obtain ⟨⟨atom, _⟩, first, ⟨y, _⟩, behind, same⟩ := read
        cases same
        exact ih.suffixes (readAtom_named first) behind
    case suffixes =>
      intro x ts rest y first read
      rw [readSuffixes] at read
      split at read
      · cases read
        exact first
      · simp only [Option.bind_eq_bind, Option.bind_eq_some_iff] at read
        obtain ⟨⟨index, _⟩, inner, _, -, more⟩ := read
        exact ih.suffixes (named_both rfl first (ih.expr inner)) more
      · simp only [Option.bind_eq_bind, Option.bind_eq_some_iff] at read
        obtain ⟨⟨args, _⟩, inner, more⟩ := read
        refine ih.suffixes ?_ more
        rw [CExpr.Named, CExpr.idents, List.forall_mem_append]
        exact ⟨first, argIdents_named (ih.args inner)⟩
      · simp only [Option.bind_eq_bind, Option.bind_eq_some_iff] at read
        obtain ⟨_, -, more⟩ := read
        exact ih.suffixes (x := .member x .direct _) first more
      · simp only [Option.bind_eq_bind, Option.bind_eq_some_iff] at read
        obtain ⟨_, -, more⟩ := read
        exact ih.suffixes (x := .member x .indirect _) first more
      · exact ih.suffixes (x := .unary .postInc x) first read
      · exact ih.suffixes (x := .unary .postDec x) first read
    case args =>
      intro ts rest xs read
      rw [readArgs] at read
      split at read
      · cases read
        exact fun _ none => absurd none List.not_mem_nil
      · simp only [Option.bind_eq_bind, Option.bind_eq_some_iff] at read
        obtain ⟨⟨first, _⟩, here, ⟨others, _⟩, more, same⟩ := read
        cases same
        exact List.forall_mem_cons.mpr ⟨ih.expr here, ih.moreArgs more⟩
    case moreArgs =>
      intro ts rest xs read
      rw [readMoreArgs] at read
      split at read
      · cases read
        exact fun _ none => absurd none List.not_mem_nil
      · simp only [Option.bind_eq_bind, Option.bind_eq_some_iff] at read
        obtain ⟨_, -, ⟨first, _⟩, here, ⟨others, _⟩, more, same⟩ := read
        cases same
        exact List.forall_mem_cons.mpr ⟨ih.expr here, ih.moreArgs more⟩

/-! ## Statements -/

variable (structs) in
/-- Each identifier in the expressions of the sites is the name of an object. -/
def SitesNamed (sites : List CodeSite) : Prop := ∀ site ∈ sites, ∀ e ∈ site.stmt.evaluated, e.Named structs

theorem sitesNamed_append {xs ys : List CodeSite} : SitesNamed structs (xs ++ ys) ↔ SitesNamed structs xs ∧ SitesNamed structs ys :=
  List.forall_mem_append

variable (structs) in
/-- Each identifier in the statement, or in one inside it, is the name of an object. -/
structure CStmt.Named (s : CStmt) : Prop where
  own : ∀ e ∈ s.evaluated, e.Named structs
  inner : ∀ scope, SitesNamed structs (s.sites scope)

theorem CStmt.Named.site {s : CStmt} (named : s.Named structs) (scope : List String) :
    SitesNamed structs (s.lone scope ++ s.sites scope) := by
  refine sitesNamed_append.mpr ⟨?_, named.inner scope⟩
  unfold CStmt.lone
  split
  · nofun
  · exact List.forall_mem_singleton.mpr named.own

theorem codeSites_named : ∀ {ss : List CStmt}, (∀ s ∈ ss, s.Named structs) → ∀ scope, SitesNamed structs (codeSites scope ss)
  | [], _, _ => List.forall_mem_nil _
  | s :: ss, each, scope => by
    rw [List.forall_mem_cons] at each
    rw [codeSites, SitesNamed, List.forall_mem_cons, List.forall_mem_append]
    exact ⟨each.1.own, each.1.inner scope, codeSites_named each.2 _⟩

/-- A statement with a single expression and no statement inside. -/
theorem CStmt.Named.lone {s : CStmt} {x : CExpr} (named : x.Named structs) (own : s.evaluated = [x])
    (flat : ∀ scope, s.sites scope = []) : s.Named structs where
  own := by
    rw [own]
    exact List.forall_mem_singleton.mpr named
  inner scope := by
    rw [flat]
    nofun

/-- A statement without expressions and statements. -/
theorem CStmt.Named.bare {s : CStmt} (own : s.evaluated = []) (flat : ∀ scope, s.sites scope = []) : s.Named structs where
  own := by
    rw [own]
    nofun
  inner scope := by
    rw [flat]
    nofun

theorem readTest_named {fuel : Nat} {ts rest : List CToken} {x : CExpr} (read : readTest structs fuel ts = some (x, rest)) :
    x.Named structs := by
  simp only [readTest, Option.bind_eq_bind, Option.bind_eq_some_iff] at read
  obtain ⟨_, -, ⟨y, _⟩, test, _, -, same⟩ := read
  cases same
  exact (readsNamed fuel).expr test

theorem readFull_named {fuel : Nat} {ts rest : List CToken} {x : CExpr} (read : readFull structs fuel ts = some (x, rest)) :
    x.Named structs := by
  simp only [readFull, Option.bind_eq_bind, Option.bind_eq_some_iff] at read
  obtain ⟨⟨y, _⟩, full, _, -, same⟩ := read
  cases same
  exact (readsNamed fuel).expr full

variable (structs) in
/-- The statements that are read with this much fuel have only names of objects. -/
structure StatementsNamed (fuel : Nat) : Prop where
  stmt : ∀ {ts rest s}, readStmt structs fuel ts = some (s, rest) → s.Named structs
  item : ∀ {ts rest s}, readItem structs fuel ts = some (s, rest) → s.Named structs
  items : ∀ {ts rest ss}, readItems structs fuel ts = some (ss, rest) → ∀ s ∈ ss, s.Named structs

theorem statementsNamed : ∀ fuel, StatementsNamed structs fuel
  | 0 => by constructor <;> intros <;> contradiction
  | fuel + 1 => by
    have ih := statementsNamed fuel
    constructor
    case stmt =>
      intro ts rest s read
      cases ts with
      | nil => cases read
      | cons t ts =>
        rw [readStmt] at read
        split at read
        · cases read
          exact .bare rfl fun _ => rfl
        · obtain ⟨⟨ss, _⟩, inner, same⟩ := Option.map_eq_some_iff.mp read
          cases same
          exact ⟨fun _ none => absurd none List.not_mem_nil, codeSites_named (ih.items inner)⟩
        · simp only [Option.bind_eq_bind, Option.bind_eq_some_iff] at read
          obtain ⟨⟨test, _⟩, tested, ⟨yes, _⟩, first, more⟩ := read
          have own := List.forall_mem_singleton.mpr (readTest_named tested)
          split at more
          · cases more
            exact ⟨own, fun scope => sitesNamed_append.mpr
              ⟨(ih.stmt first).site scope, fun _ none => absurd none List.not_mem_nil⟩⟩
          · obtain ⟨⟨no, _⟩, second, same⟩ := Option.bind_eq_some_iff.mp more
            cases same
            exact ⟨own, fun scope => sitesNamed_append.mpr ⟨(ih.stmt first).site scope, (ih.stmt second).site scope⟩⟩
        · simp only [Option.bind_eq_bind, Option.bind_eq_some_iff] at read
          obtain ⟨⟨test, _⟩, tested, ⟨body, _⟩, inner, same⟩ := read
          cases same
          exact ⟨List.forall_mem_singleton.mpr (readTest_named tested), (ih.stmt inner).site⟩
        · split at read
          · cases read
            exact .bare rfl fun _ => rfl
          · obtain ⟨⟨x, _⟩, value, same⟩ := Option.map_eq_some_iff.mp read
            cases same
            exact .lone (readFull_named value) rfl fun _ => rfl
        · obtain ⟨_, -, same⟩ := Option.map_eq_some_iff.mp read
          cases same
          exact .bare rfl fun _ => rfl
        · obtain ⟨_, -, same⟩ := Option.map_eq_some_iff.mp read
          cases same
          exact .bare rfl fun _ => rfl
        · obtain ⟨⟨x, _⟩, value, same⟩ := Option.map_eq_some_iff.mp read
          cases same
          exact .lone (readFull_named value) rfl fun _ => rfl
    case item =>
      intro ts rest s read
      rw [readItem] at read
      split at read
      · simp only [Option.bind_eq_bind, Option.bind_eq_some_iff] at read
        obtain ⟨_, -, _, -, same⟩ := read
        cases same
        exact .bare rfl fun _ => rfl
      · exact ih.stmt read
    case items =>
      intro ts rest ss read
      rw [readItems] at read
      split at read
      · cases read
        exact fun _ none => absurd none List.not_mem_nil
      · simp only [Option.bind_eq_bind, Option.bind_eq_some_iff] at read
        obtain ⟨⟨first, _⟩, here, ⟨others, _⟩, more, same⟩ := read
        cases same
        exact List.forall_mem_cons.mpr ⟨ih.item here, ih.items more⟩

/-! ## Units -/

variable (structs) in
/-- Each identifier in the body of the declaration is the name of an object. -/
def Decl.Named : Decl → Prop
  | .fn _ _ _ (some body) => ∀ scope, SitesNamed structs (codeSites scope body)
  | _ => True

theorem readDecl_named {fuel : Nat} {ts rest : List CToken} {d : Decl} (read : readDecl structs fuel ts = some (d, rest)) :
    d.Named structs := by
  unfold readDecl at read
  split at read
  · unfold readStruct at read
    simp only [Option.bind_eq_bind, Option.bind_eq_some_iff] at read
    obtain ⟨_, -, _, -, _, -, _, -, _, -, same⟩ := read
    split at same
    · cases same
      trivial
    · cases same
  · obtain ⟨⟨p, behind⟩, -, more⟩ := Option.bind_eq_some_iff.mp read
    simp only at more
    split at more
    · simp only [Option.bind_eq_bind, Option.bind_eq_some_iff] at more
      obtain ⟨_, -, ⟨body, _⟩, readBehind, same⟩ := more
      cases same
      unfold readBody at readBehind
      split at readBehind
      · cases readBehind
        trivial
      · simp only [Option.bind_eq_bind, Option.bind_eq_some_iff] at readBehind
        obtain ⟨_, -, ⟨ss, _⟩, inner, same⟩ := readBehind
        cases same
        exact codeSites_named ((statementsNamed fuel).items inner)
    · obtain ⟨_, -, same⟩ := Option.map_eq_some_iff.mp more
      cases same
      trivial
    · obtain ⟨_, -, same⟩ := Option.map_eq_some_iff.mp more
      cases same
      trivial

theorem readDecls_named : ∀ {fuel : Nat} {ts : List CToken} {ds : List Decl}, readDecls structs fuel ts = some ds →
    ∀ d ∈ ds, d.Named structs
  | fuel, [], ds, read => by
    have same : some [] = some ds := by cases fuel <;> exact read
    cases same
    nofun
  | 0, _ :: _, _, read => by cases read
  | fuel + 1, t :: ts, ds, read => by
    simp only [readDecls, Option.bind_eq_bind, Option.bind_eq_some_iff] at read
    obtain ⟨⟨d, _⟩, first, others, more, same⟩ := read
    cases same
    exact List.forall_mem_cons.mpr ⟨readDecl_named first, readDecls_named more⟩

/-- The bodies of a unit that is read have only names of objects as identifiers. -/
theorem readUnit_named {name : String} {text : Bytes} {u : CUnit} (read : readUnit structs name text = some u) :
    ∀ d ∈ u.decls, d.Named structs := by
  simp only [readUnit, Option.bind_eq_bind, Option.bind_eq_some_iff] at read
  obtain ⟨_, -, _, -, decls, all, same⟩ := read
  cases same
  exact readDecls_named all

/-! ## Directives -/

theorem newline_not_mem {bs line : Bytes} (piece : line ∈ bs.splitOn 0x0A) : 0x0A ∉ line := by
  induction bs generalizing line with
  | nil =>
    cases List.mem_singleton.mp piece
    nofun
  | cons b bs ih =>
    rw [List.splitOn_eq_splitOnP, List.splitOnP_cons_eq_if_modifyHead, ← List.splitOn_eq_splitOnP] at piece
    obtain ⟨first, others, split⟩ := List.exists_cons_of_ne_nil (List.splitOn_ne_nil 0x0A bs)
    rw [split] at ih piece
    split at piece
    · rcases List.mem_cons.mp piece with rfl | later
      · nofun
      · exact ih later
    · next other =>
      rw [List.modifyHead_cons] at piece
      rcases List.mem_cons.mp piece with rfl | later
      · have apart : (0x0A : UInt8) ≠ b := fun same => other (by rw [← same]; rfl)
        exact List.not_mem_cons_of_ne_of_not_mem apart (ih (List.mem_cons_self ..))
      · exact ih (List.mem_cons_of_mem _ later)

theorem headerName_readable {closing : UInt8} {line : Bytes} {n : String} (known : headerName closing line = some n)
    (inLine : 0x0A ∉ line) (ascii : 0 < closing ∧ closing < 0x80) : 0x0A ∉ utf8 n ∧ closing ∉ utf8 n := by
  unfold headerName at known
  split at known
  · have inside : ∀ b ∈ line.takeWhile (· != closing), b ∈ line ∧ b ≠ closing := by
      intro b member
      exact ⟨(List.takeWhile_sublist _).subset member, by simpa using List.all_eq_true.mp List.all_takeWhile b member⟩
    have decoded {b : UInt8} := Text.ascii_mem_of_string known (b := b)
    refine ⟨fun member => inLine (inside _ (decoded (by decide) (by decide) member)).1, fun member => ?_⟩
    exact (inside _ (decoded ascii.1 ascii.2 member)).2 rfl
  · cases known

theorem behind_suffix {head : String} {line more : Bytes} (known : C.behind head line = some more) : more <:+ line := by
  unfold C.behind at known
  split at known
  · cases known
    exact List.drop_suffix _ _
  · cases known

theorem directive_readable {line : Bytes} {i : Include} (inLine : 0x0A ∉ line) (known : directive? line = some (.includes i)) :
    i.Readable := by
  unfold directive? at known
  split at known
  · cases known
  split at known
  · next _ _ found =>
    obtain ⟨n, named, same⟩ := Option.map_eq_some_iff.mp known
    cases same
    have readable := headerName_readable named (fun member => inLine ((behind_suffix found).subset member)) (by decide)
    exact ⟨readable.1, readable.2⟩
  · next _ _ found =>
    obtain ⟨n, named, same⟩ := Option.map_eq_some_iff.mp known
    cases same
    have readable := headerName_readable named (fun member => inLine ((behind_suffix found).subset member)) (by decide)
    exact ⟨readable.1, readable.2⟩
  · cases known

theorem directives_readable : ∀ {lines rest : List Bytes} {ds : List Directive}, (∀ line ∈ lines, 0x0A ∉ line) →
    directives lines = some (ds, rest) → ∀ i ∈ ds.filterMap Directive.include?, i.Readable
  | [], _, _, _, read => by
    cases read
    nofun
  | line :: lines, rest, ds, inLine, read => by
    rw [List.forall_mem_cons] at inLine
    rw [directives] at read
    split at read
    · exact directives_readable inLine.2 read
    split at read
    · simp only [Option.bind_eq_bind, Option.bind_eq_some_iff] at read
      obtain ⟨d, known, ⟨more, _⟩, others, same⟩ := read
      cases same
      have behind := directives_readable inLine.2 others
      cases d with
      | once => exact behind
      | includes i => exact List.forall_mem_cons.mpr ⟨directive_readable inLine.1 known, behind⟩
    · cases read
      nofun

/-- What a unit that is read includes has names that do not end early. -/
theorem readUnit_includes {name : String} {text : Bytes} {u : CUnit} (read : readUnit structs name text = some u) :
    ∀ i ∈ u.includes, i.Readable := by
  simp only [readUnit, Option.bind_eq_bind, Option.bind_eq_some_iff] at read
  obtain ⟨⟨ds, rest⟩, lines, _, -, decls, -, same⟩ := read
  cases same
  exact directives_readable (fun line piece => newline_not_mem piece) lines

end
end C
end PineLang
