import PineLang.Text.Utf8

/-!
Encoding and decoding are inverse: the bytes of a string are those of its characters in order
(`utf8_eq`), and the character at the head of encoded text is read back whole (`decodeHead_encode`).
-/
namespace PineLang

/-! ## Deciding -/

section
variable {p : UInt8 → Prop} [DecidablePred p]

/-- What is said of all bytes of a list is decided along the list, and not over all bytes there are. -/
instance (priority := high) (bs : Bytes) : Decidable (∀ b ∈ bs, p b) := List.decidableBAll p bs

instance (priority := high) (bs : Bytes) : Decidable (∃ b ∈ bs, p b) := List.decidableBEx p bs

instance (priority := high) decidableForallMemOption (b? : Option UInt8) : Decidable (∀ b ∈ b?, p b) := Option.decidableForallMem b?

end

/-! ## The bytes of a string -/

private theorem toList_loop (bs : ByteArray) (i : Nat) (done : List UInt8) :
    ByteArray.toList.loop bs i done = done.reverse ++ bs.data.toList.drop i := by
  fun_induction ByteArray.toList.loop bs i done with
  | case1 i done inside ih =>
    rw [ih]
    have bound : i < bs.data.toList.length := by simpa using inside
    rw [List.drop_eq_getElem_cons bound]
    simp [ByteArray.get!, getElem!_pos, inside]
  | case2 i done outside =>
    have bound : bs.data.toList.length ≤ i := by simpa using outside
    rw [List.drop_eq_nil_of_le bound, List.append_nil]

theorem utf8_eq (s : String) : utf8 s = s.toList.flatMap String.utf8EncodeChar := by
  rw [utf8, ByteArray.toList, toList_loop, String.toUTF8_eq_toByteArray, ← String.utf8Encode_toList]
  simp [List.utf8Encode]

@[simp] theorem utf8_append (s t : String) : utf8 (s ++ t) = utf8 s ++ utf8 t := by
  simp [utf8_eq]

@[simp] theorem utf8_empty : utf8 "" = [] := by simp [utf8_eq]

/-- The bytes of given characters. A literal is rewritten with this before what is said of its bytes is decided, which
    saves the way through the array of its bytes. -/
theorem utf8_ofList (cs : List Char) : utf8 (String.ofList cs) = cs.flatMap String.utf8EncodeChar := by
  rw [utf8_eq, String.toList_ofList]

theorem utf8_join (ss : List String) : utf8 (String.join ss) = ss.flatMap utf8 := by
  induction ss with
  | nil => simp
  | cons s ss ih => simp [ih]

/-! ## ASCII -/

theorem encode_ascii {b : UInt8} (ascii : b < 0x80) : String.utf8EncodeChar (Char.ofNat b.toNat) = [b] := by
  have every : ∀ n < 128, String.utf8EncodeChar (Char.ofNat n) = [UInt8.ofNat n] := by decide
  have small : b.toNat < 128 := UInt8.lt_iff_toNat_lt.mp ascii
  rw [every b.toNat small, UInt8.ofNat_toNat]

/-- ASCII bytes read as characters are written as the same bytes. -/
theorem utf8_ofBytes : ∀ {bs : Bytes}, (∀ b ∈ bs, b < 0x80) →
    utf8 (String.ofList (bs.map fun b => Char.ofNat b.toNat)) = bs
  | [], _ => by simp
  | b :: bs, ascii => by
    have rest := @utf8_ofBytes bs fun c member => ascii c (List.mem_cons_of_mem b member)
    rw [utf8_ofList] at rest ⊢
    rw [List.map_cons, List.flatMap_cons, rest, encode_ascii (ascii b (List.mem_cons_self ..))]
    rfl

namespace Text

/-! ## Reading a character back -/

section Heads

variable {a b c d : UInt8} {rest : Bytes}

theorem isTail_iff : isTail b = true ↔ 0x80 ≤ b.toNat ∧ b.toNat ≤ 0xBF := by
  simp [isTail, UInt8.le_iff_toNat_le]

theorem decodeHead_one (low : a.toNat < 0x80) : decodeHead (a :: rest) = (Char.ofNat a.toNat, 1) := by
  have first : a < 0x80 := UInt8.lt_iff_toNat_lt.mpr low
  simp [decodeHead, first]

private theorem not_lt_of_toNat {m : UInt8} (above : m.toNat ≤ a.toNat) : ¬ a < m := by
  rw [UInt8.lt_iff_toNat_lt]
  omega

private theorem bound_iff {m low high : UInt8} : (if a == m then low else high) ≤ b ↔
    (if a.toNat = m.toNat then low.toNat else high.toNat) ≤ b.toNat := by
  rw [UInt8.le_iff_toNat_le]
  simp only [beq_iff_eq, ← UInt8.toNat_inj]
  split <;> rfl

private theorem bound_iff' {m low high : UInt8} : b ≤ (if a == m then low else high) ↔
    b.toNat ≤ if a.toNat = m.toNat then low.toNat else high.toNat := by
  rw [UInt8.le_iff_toNat_le]
  simp only [beq_iff_eq, ← UInt8.toNat_inj]
  split <;> rfl

theorem decodeHead_two (lead : 0xC2 ≤ a.toNat ∧ a.toNat < 0xE0) (tail : isTail b = true) :
    decodeHead (a :: b :: rest) = (Char.ofNat (a.toNat % 32 * 64 + tailBits b), 2) := by
  have notOne : ¬ a < 0x80 := not_lt_of_toNat (Nat.le_trans (by decide) lead.1)
  have notStray : ¬ a < 0xC2 := not_lt_of_toNat lead.1
  have two : a < 0xE0 := UInt8.lt_iff_toNat_lt.mpr lead.2
  simp [decodeHead, notOne, notStray, two, tail]

theorem decodeHead_three (lead : 0xE0 ≤ a.toNat ∧ a.toNat < 0xF0)
    (low : (if a.toNat = 0xE0 then 0xA0 else 0x80) ≤ b.toNat) (high : b.toNat ≤ if a.toNat = 0xED then 0x9F else 0xBF)
    (tail : isTail c = true) :
    decodeHead (a :: b :: c :: rest) = (Char.ofNat (a.toNat % 16 * 4096 + tailBits b * 64 + tailBits c), 3) := by
  have notOne : ¬ a < 0x80 := not_lt_of_toNat (Nat.le_trans (by decide) lead.1)
  have notStray : ¬ a < 0xC2 := not_lt_of_toNat (Nat.le_trans (by decide) lead.1)
  have notTwo : ¬ a < 0xE0 := not_lt_of_toNat lead.1
  have three : a < 0xF0 := UInt8.lt_iff_toNat_lt.mpr lead.2
  have least : (if a == 0xE0 then 0xA0 else 0x80 : UInt8) ≤ b := bound_iff.mpr low
  have most : b ≤ (if a == 0xED then 0x9F else 0xBF : UInt8) := bound_iff'.mpr high
  simp only [decodeHead, notOne, notStray, notTwo, three, least, most, tail, if_false, if_true, decide_true, Bool.and_self]

theorem decodeHead_four (lead : 0xF0 ≤ a.toNat ∧ a.toNat < 0xF5)
    (low : (if a.toNat = 0xF0 then 0x90 else 0x80) ≤ b.toNat) (high : b.toNat ≤ if a.toNat = 0xF4 then 0x8F else 0xBF)
    (third : isTail c = true) (fourth : isTail d = true) :
    decodeHead (a :: b :: c :: d :: rest) =
      (Char.ofNat (a.toNat % 8 * 262144 + tailBits b * 4096 + tailBits c * 64 + tailBits d), 4) := by
  have notOne : ¬ a < 0x80 := not_lt_of_toNat (Nat.le_trans (by decide) lead.1)
  have notStray : ¬ a < 0xC2 := not_lt_of_toNat (Nat.le_trans (by decide) lead.1)
  have notTwo : ¬ a < 0xE0 := not_lt_of_toNat (Nat.le_trans (by decide) lead.1)
  have notThree : ¬ a < 0xF0 := not_lt_of_toNat lead.1
  have four : a < 0xF5 := UInt8.lt_iff_toNat_lt.mpr lead.2
  have least : (if a == 0xF0 then 0x90 else 0x80 : UInt8) ≤ b := bound_iff.mpr low
  have most : b ≤ (if a == 0xF4 then 0x8F else 0xBF : UInt8) := bound_iff'.mpr high
  simp only [decodeHead, notOne, notStray, notTwo, notThree, four, least, most, third, fourth, if_false, if_true,
    decide_true, Bool.and_self]

/-- What is read at the head of bytes: a byte of ASCII, a byte that starts no character, or a longer character, which is
    beyond ASCII. -/
inductive Head (a : UInt8) (rest : Bytes) : Char × Nat → Prop where
  | ascii (low : a.toNat < 0x80) : Head a rest (Char.ofNat a.toNat, 1)
  | stray (high : 0x80 ≤ a.toNat) : Head a rest (replacement, 1)
  | longer {n width : Nat} (high : 0x80 ≤ a.toNat) (valid : n.isValidChar) (beyond : 0x80 ≤ n) (long : 2 ≤ width)
      (room : width ≤ rest.length + 1) : Head a rest (Char.ofNat n, width)

private theorem Head.of_test {test : Bool} {n width : Nat} (high : 0x80 ≤ a.toNat)
    (known : test = true → n.isValidChar ∧ 0x80 ≤ n) (long : 2 ≤ width) (room : width ≤ rest.length + 1) :
    Head a rest (if test then (Char.ofNat n, width) else (replacement, 1)) := by
  cases test with
  | false => exact .stray high
  | true => exact .longer high (known rfl).1 (known rfl).2 long room

theorem decodeHead_head (a : UInt8) (rest : Bytes) : Head a rest (decodeHead (a :: rest)) := by
  by_cases low : a.toNat < 0x80
  · rw [decodeHead_one low]
    exact .ascii low
  · have high : 0x80 ≤ a.toNat := Nat.le_of_not_lt low
    unfold decodeHead
    simp only
    rw [if_neg (not_lt_of_toNat (m := 0x80) high)]
    split
    · exact .stray high
    · next least =>
      rw [UInt8.lt_iff_toNat_lt, Nat.not_lt] at least
      simp only [UInt8.reduceToNat] at least
      split
      · next most =>
        rw [UInt8.lt_iff_toNat_lt] at most
        simp only [UInt8.reduceToNat] at most
        rcases rest with _ | ⟨b, rest⟩
        · exact .stray high
        · refine .of_test high (fun _ => ?_) (by decide) (by simp)
          rw [tailBits, Nat.isValidChar]
          omega
      · next least =>
        rw [UInt8.lt_iff_toNat_lt, Nat.not_lt] at least
        simp only [UInt8.reduceToNat] at least
        split
        · next most =>
          rw [UInt8.lt_iff_toNat_lt] at most
          simp only [UInt8.reduceToNat] at most
          rcases rest with _ | ⟨b, _ | ⟨c, rest⟩⟩
          · exact .stray high
          · exact .stray high
          · refine .of_test high (fun tails => ?_) (by decide) (by simp)
            rw [Bool.and_eq_true, Bool.and_eq_true, decide_eq_true_iff, decide_eq_true_iff, bound_iff, bound_iff'] at tails
            obtain ⟨⟨low, high⟩, -⟩ := tails
            simp only [UInt8.reduceToNat] at low high
            rw [tailBits, tailBits, Nat.isValidChar]
            split at low <;> split at high <;> omega
        · next least =>
          rw [UInt8.lt_iff_toNat_lt, Nat.not_lt] at least
          simp only [UInt8.reduceToNat] at least
          split
          · next most =>
            rw [UInt8.lt_iff_toNat_lt] at most
            simp only [UInt8.reduceToNat] at most
            rcases rest with _ | ⟨b, _ | ⟨c, _ | ⟨d, rest⟩⟩⟩
            · exact .stray high
            · exact .stray high
            · exact .stray high
            · refine .of_test high (fun tails => ?_) (by decide) (by simp)
              rw [Bool.and_eq_true, Bool.and_eq_true, Bool.and_eq_true, decide_eq_true_iff, decide_eq_true_iff, bound_iff,
                bound_iff'] at tails
              obtain ⟨⟨⟨low, high⟩, -⟩, -⟩ := tails
              simp only [UInt8.reduceToNat] at low high
              rw [tailBits, tailBits, tailBits, Nat.isValidChar]
              split at low <;> split at high <;> omega
          · exact .stray high

end Heads

theorem decodeHead_encode (c : Char) (rest : Bytes) :
    decodeHead (String.utf8EncodeChar c ++ rest) = (c, (String.utf8EncodeChar c).length) := by
  have read {n : Nat} (same : n = c.val.toNat) : Char.ofNat n = c := by
    rw [same]
    exact Char.ofNat_toNat c
  have byte {n : Nat} (small : n < 256) : (UInt8.ofNat n).toNat = n := UInt8.toNat_ofNat_of_lt' small
  have valid : c.val.toNat < 0xD800 ∨ 0xDFFF < c.val.toNat ∧ c.val.toNat < 0x110000 := c.valid
  fun_cases String.utf8EncodeChar c with
  | case1 v one =>
    have lead : (UInt8.ofNat v).toNat = v := byte (by omega)
    rw [List.cons_append, List.nil_append, decodeHead_one (by omega), read lead]
    rfl
  | case2 v above two =>
    have lead : (UInt8.ofNat (v / 64 % 0x20 + 0xc0)).toNat = v / 64 % 0x20 + 0xc0 := byte (by omega)
    have tail : (UInt8.ofNat (v % 0x40 + 0x80)).toNat = v % 0x40 + 0x80 := byte (by omega)
    rw [List.cons_append, List.cons_append, List.nil_append, decodeHead_two (by omega) (isTail_iff.mpr (by omega)), read]
    · rfl
    · rw [tailBits, lead, tail]
      omega
  | case3 v _ above three =>
    have lead : (UInt8.ofNat (v / 4096 % 0x10 + 0xe0)).toNat = v / 4096 % 0x10 + 0xe0 := byte (by omega)
    have second : (UInt8.ofNat (v / 64 % 0x40 + 0x80)).toNat = v / 64 % 0x40 + 0x80 := byte (by omega)
    have tail : (UInt8.ofNat (v % 0x40 + 0x80)).toNat = v % 0x40 + 0x80 := byte (by omega)
    have value : v = c.val.toNat := rfl
    simp only [List.cons_append, List.nil_append]
    rw [decodeHead_three (by omega) ?_ ?_ (isTail_iff.mpr (by omega)), read]
    · rfl
    · rw [tailBits, tailBits, lead, second, tail]
      omega
    · rw [lead, second]
      split <;> omega
    · rw [lead, second]
      split <;> omega
  | case4 v _ _ above =>
    have lead : (UInt8.ofNat (v / 262144 % 0x08 + 0xf0)).toNat = v / 262144 % 0x08 + 0xf0 := byte (by omega)
    have second : (UInt8.ofNat (v / 4096 % 0x40 + 0x80)).toNat = v / 4096 % 0x40 + 0x80 := byte (by omega)
    have third : (UInt8.ofNat (v / 64 % 0x40 + 0x80)).toNat = v / 64 % 0x40 + 0x80 := byte (by omega)
    have tail : (UInt8.ofNat (v % 0x40 + 0x80)).toNat = v % 0x40 + 0x80 := byte (by omega)
    have value : v = c.val.toNat := rfl
    simp only [List.cons_append, List.nil_append]
    rw [decodeHead_four (by omega) ?_ ?_ (isTail_iff.mpr (by omega)) (isTail_iff.mpr (by omega)), read]
    · rfl
    · rw [tailBits, tailBits, tailBits, lead, second, third, tail]
      omega
    · rw [lead, second]
      split <;> omega
    · rw [lead, second]
      split <;> omega

end Text
end PineLang
