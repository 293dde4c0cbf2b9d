import Mathlib.Algebra.Group.Nat.Defs
import PineLang.Cache.Store
import PineLang.Proofs.CSpelling
import PineLang.Proofs.Places

/-!
The entries of the cache. Every key has a file of its own name (`entryFile_injective`), the key of a compilation says
what was compiled (`keyText_injective`), and an entry is read as it was written (`decode_encode`).
-/
namespace PineLang

/-! ## Names of entries -/

/-- The two digits of a byte. -/
private def hexDigits (n : Nat) : List Char :=
  List.replicate (2 - (Nat.toDigits 16 n).length) '0' ++ Nat.toDigits 16 n

/-- The number that digits stand for. -/
private def hexValue (ds : List Char) : Nat :=
  ds.foldl (fun n d => 16 * n + if d.isDigit then d.toNat - '0'.toNat else d.toNat - 'a'.toNat + 10) 0

private theorem toList_hex (bs : Bytes) : (Text.hexOfBytes bs).toList = bs.flatMap fun b => hexDigits b.toNat := by
  rw [Text.hexOfBytes, String.toList_join, List.flatMap_map]
  congr 1
  funext b
  rw [Text.hexPadded, String.toList_ofList]
  rfl

/-- The digits of a byte are two, none of them a slash, and it is read back from them. -/
theorem hexDigits_known : ∀ n < 256, '/' ∉ hexDigits n ∧ (hexDigits n).length = 2 ∧ hexValue (hexDigits n) = n := by
  decide +kernel

theorem noSlash_hex (bs : Bytes) : '/' ∉ (Text.hexOfBytes bs).toList := by
  rw [toList_hex, List.mem_flatMap]
  rintro ⟨b, _, inside⟩
  exact (hexDigits_known b.toNat b.toNat_lt).1 inside

theorem hexOfBytes_injective : Function.Injective Text.hexOfBytes := by
  have length (n : Nat) (isByte : n < 256) : (hexDigits n).length = 2 := (hexDigits_known n isByte).2.1
  have back (n : Nat) (isByte : n < 256) : hexValue (hexDigits n) = n := (hexDigits_known n isByte).2.2
  have inner : ∀ as bs : Bytes,
      (as.flatMap fun b => hexDigits b.toNat) = (bs.flatMap fun b => hexDigits b.toNat) → as = bs := by
    intro as
    induction as with
    | nil =>
      rintro (_ | ⟨b, bs⟩) same
      · rfl
      · have lengths := congrArg List.length same
        rw [List.flatMap_cons, List.length_append, length b.toNat b.toNat_lt, List.flatMap_nil, List.length_nil] at lengths
        omega
    | cons a as ih =>
      rintro (_ | ⟨b, bs⟩) same
      · have lengths := congrArg List.length same
        rw [List.flatMap_cons, List.length_append, length a.toNat a.toNat_lt, List.flatMap_nil, List.length_nil] at lengths
        omega
      · rw [List.flatMap_cons, List.flatMap_cons] at same
        obtain ⟨head, tail⟩ := List.append_inj same ((length a.toNat a.toNat_lt).trans (length b.toNat b.toNat_lt).symm)
        have value := congrArg hexValue head
        simp only [back a.toNat a.toNat_lt, back b.toNat b.toNat_lt] at value
        rw [UInt8.toNat_inj.mp value, ih bs tail]
  intro as bs same
  exact inner as bs (by rw [← toList_hex, same, toList_hex])

namespace Cache

/-- The name of the file of a key. -/
def entryFile (key : Bytes) : String := Text.hexOfBytes key ++ ".mp"

theorem entryFile_injective : Function.Injective entryFile := by
  intro k k' same
  have texts := congrArg String.toList same
  rw [entryFile, entryFile, String.toList_append, String.toList_append] at texts
  exact hexOfBytes_injective (String.toList_inj.mp (List.append_inj_left' texts rfl))

theorem Store.pathOf_endsIn (s : Store) (key : Bytes) : Path.EndsIn (s.pathOf key) (entryFile key) :=
  (Path.endsIn_extended (noSlash_hex _) (by decide) (c := 'p') (by decide) (by decide)).join [s.dir, "units"]

/-! ## Keys -/

/-- What is hashed for a key. -/
def keyText (hash : Bytes) (unit : String) (isProgram : Bool) : Bytes :=
  [(layout % 256).toUInt8, (layout / 256).toUInt8] ++ hash ++ utf8 unit ++ [0] ++ utf8 compilerVersion ++
    [if isProgram then 1 else 0]

theorem length_sha256 (bs : Bytes) : (sha256 bs).length = 32 := by
  simp [sha256, Sha256.State.words, Sha256.bigEndian]

theorem utf8_injective : Function.Injective utf8 := by
  intro s t same
  exact Option.some.inj (by rw [← C.string_utf8 s, same, C.string_utf8])

theorem keyText_injective {source source' : Bytes} {unit unit' : String} {isProgram isProgram' : Bool}
    (same : keyText (sha256 source) unit isProgram = keyText (sha256 source') unit' isProgram') :
    sha256 source = sha256 source' ∧ unit = unit' ∧ isProgram = isProgram' := by
  unfold keyText at same
  obtain ⟨front, flag⟩ := List.append_inj' same rfl
  obtain ⟨named, _⟩ := List.append_inj' (List.append_cancel_right front) rfl
  rw [List.append_assoc, List.append_assoc] at named
  obtain ⟨hash, name⟩ := List.append_inj (List.append_cancel_left named)
    ((length_sha256 source).trans (length_sha256 source').symm)
  refine ⟨hash, utf8_injective name, ?_⟩
  cases isProgram <;> cases isProgram' <;> simp_all

end Cache

/-! ## Reading what was written -/

namespace MessagePack

theorem bigEndian_succ (width n : Nat) :
    bigEndian (width + 1) n = (n / 256 ^ width % 256).toUInt8 :: bigEndian width n := by
  rw [bigEndian, List.range_succ, List.reverse_append]
  rfl

theorem length_bigEndian (width n : Nat) : (bigEndian width n).length = width := by simp [bigEndian]

theorem foldl_bigEndian (width n : Nat) : ∀ m,
    (bigEndian width n).foldl (fun n b => n * 256 + b.toNat) m = m * 256 ^ width + n % 256 ^ width := by
  induction width with
  | zero => intro m; simp [bigEndian, Nat.mod_one]
  | succ width ih =>
    intro m
    have byte : (n / 256 ^ width % 256).toUInt8.toNat = n / 256 ^ width % 256 :=
      UInt8.toNat_ofNat_of_lt' (Nat.mod_lt _ (by decide))
    rw [bigEndian_succ, List.foldl_cons, ih, byte, Nat.mod_pow_succ, Nat.pow_succ, Nat.add_mul, Nat.mul_assoc,
      Nat.mul_comm 256, Nat.mul_comm (n / 256 ^ width % 256), Nat.add_assoc, Nat.add_comm (n % 256 ^ width)]

theorem take_append {s rest : Bytes} {n : Nat} (length : s.length = n) : take? n (s ++ rest) = some (s, rest) := by
  subst length
  simp [take?]

theorem number_bigEndian {w n : Nat} (small : n < 256 ^ w) (rest : Bytes) :
    number? w (bigEndian w n ++ rest) = some (n, rest) := by
  rw [number?, take_append (length_bigEndian w n), Option.map_some]
  simp only [foldl_bigEndian, Nat.zero_mul, Nat.zero_add, Nat.mod_eq_of_lt small]

theorem integer_word {n : Nat} (small : n < 65536) (rest : Bytes) : integer? (word n ++ rest) = some (n, rest) := by
  rw [word, List.cons_append, integer?]
  exact number_bigEndian (w := 2) small rest

theorem string_string {s : Bytes} (small : s.length < 4294967296) (rest : Bytes) :
    string? (string s ++ rest) = some (s, rest) := by
  have taken := @take_append s rest _ rfl
  have wide {w : Nat} {code : UInt8} (fits : s.length < 256 ^ w)
      (reads : ∀ bs, stringLength? code.toNat bs = number? w bs) :
      string? (code :: bigEndian w s.length ++ s ++ rest) = some (s, rest) := by
    rw [List.cons_append, List.cons_append, string?, reads, List.append_assoc, number_bigEndian fits]
    exact taken
  unfold string
  simp only
  split
  · next short =>
    have code : (0xA0 + s.length).toUInt8.toNat = 0xA0 + s.length :=
      UInt8.toNat_ofNat_of_lt' (by omega : 0xA0 + s.length < 256)
    have reads : stringLength? (0xA0 + s.length) (s ++ rest) = some (s.length, s ++ rest) := by
      have isShort : (0xA0 ≤ 0xA0 + s.length && 0xA0 + s.length ≤ 0xBF) = true := by simp; omega
      rw [stringLength?, if_neg (by omega), if_pos isShort, Nat.add_sub_cancel_left]
    rw [List.append_assoc, List.singleton_append, string?, code, reads]
    exact taken
  · split
    · next fits => exact wide (w := 1) fits fun _ => rfl
    · split
      · next fits => exact wide (w := 2) fits fun _ => rfl
      · exact wide (w := 4) small fun _ => rfl

end MessagePack

namespace Cache.CachedUnit

/-- Reading a field by its name and then the others. -/
theorem decodeFields_string {c : CachedUnit} {n : Nat} (name : String) (short : (utf8 name).length < 4294967296)
    (bs : Bytes) : decodeFields? c (n + 1) (MessagePack.string (utf8 name) ++ bs) =
      (c.decodeField? (utf8 name) bs).bind fun x => decodeFields? x.1 n x.2 := by
  rw [decodeFields?, MessagePack.string_string short]
  rfl

/-- An entry is read as it was written. -/
theorem decode_encode {c : CachedUnit} (layout : c.layout < 65536) (unit : c.unit.length < 4294967296)
    (header : c.header.length < 4294967296) (source : c.source.length < 4294967296)
    (entry : c.entry.length < 4294967296) : decode? c.encode = some c := by
  have opens (bs : Bytes) : decode? (0x85 :: bs) = decodeFields? {} 5 bs := by
    rw [decode?, if_neg (by decide)]
    rfl
  have fields : c.encode = 0x85 ::
      (MessagePack.string (utf8 "Schema") ++ (MessagePack.word c.layout ++
        (MessagePack.string (utf8 "Unit") ++ (MessagePack.string c.unit ++
          (MessagePack.string (utf8 "Header") ++ (MessagePack.string c.header ++
            (MessagePack.string (utf8 "Source") ++ (MessagePack.string c.source ++
              (MessagePack.string (utf8 "Main") ++ (MessagePack.string c.entry ++ [])))))))))) := by
    simp only [encode, MessagePack.smallMap, List.flatMap_cons, List.flatMap_nil, List.append_assoc]
    rfl
  rw [fields, opens]
  rw [decodeFields_string "Schema" (by simp only [utf8_eq]; decide)]
  simp only [decodeField?, C.string_utf8, MessagePack.integer_word layout, Option.map_some, Option.bind_some]
  rw [decodeFields_string "Unit" (by simp only [utf8_eq]; decide)]
  simp only [decodeField?, C.string_utf8, MessagePack.string_string unit, Option.map_some, Option.bind_some]
  rw [decodeFields_string "Header" (by simp only [utf8_eq]; decide)]
  simp only [decodeField?, C.string_utf8, MessagePack.string_string header, Option.map_some, Option.bind_some]
  rw [decodeFields_string "Source" (by simp only [utf8_eq]; decide)]
  simp only [decodeField?, C.string_utf8, MessagePack.string_string source, Option.map_some, Option.bind_some]
  rw [decodeFields_string "Main" (by simp only [utf8_eq]; decide)]
  simp only [decodeField?, C.string_utf8, MessagePack.string_string entry, Option.map_some, Option.bind_some]
  rw [decodeFields?, Nat.mod_eq_of_lt layout]

end Cache.CachedUnit
end PineLang
