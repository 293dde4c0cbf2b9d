import PineLang.Text.Utf8

/-!
# MessagePack

The part of the MessagePack format that cache entries use: maps from names to numbers and strings.
Reading takes any encoding of the same values and skips what it has no use for.
-/
namespace PineLang.MessagePack

/-! ## Writing -/

/-- The bytes of a number, the most significant first. -/
def bigEndian (width n : Nat) : Bytes :=
  (List.range width).reverse.map fun i => (n / Nat.pow 256 i % 256).toUInt8

/-- A string. -/
def string (s : Bytes) : Bytes :=
  let n := s.length
  (if n < 32 then [(0xA0 + n).toUInt8]
    else if n < 256 then 0xD9 :: bigEndian 1 n
    else if n < 65536 then 0xDA :: bigEndian 2 n
    else 0xDB :: bigEndian 4 n) ++ s

/-- A number of sixteen bits. -/
def word (n : Nat) : Bytes := 0xCD :: bigEndian 2 n

/-- A map of up to fifteen entries; keys and values are written already. -/
def smallMap (entries : List (Bytes × Bytes)) : Bytes :=
  (0x80 + entries.length).toUInt8 :: entries.flatMap fun (k, v) => k ++ v

/-! ## Reading -/

/-- Takes a fixed number of bytes. -/
def take? (n : Nat) (bs : Bytes) : Option (Bytes × Bytes) :=
  if n ≤ bs.length then some (bs.take n, bs.drop n) else none

/-- A number of `width` bytes, the most significant first. -/
def number? (width : Nat) (bs : Bytes) : Option (Nat × Bytes) :=
  (take? width bs).map fun (ds, rest) => (ds.foldl (fun n b => n * 256 + b.toNat) 0, rest)

/-- The length of a string or of raw bytes, after the byte that opens it. -/
def stringLength? (code : Nat) (bs : Bytes) : Option (Nat × Bytes) :=
  if code = 0xC0 then some (0, bs)
  else if 0xA0 ≤ code && code ≤ 0xBF then some (code - 0xA0, bs)
  else if code = 0xD9 || code = 0xC4 then number? 1 bs
  else if code = 0xDA || code = 0xC5 then number? 2 bs
  else if code = 0xDB || code = 0xC6 then number? 4 bs
  else none

/-- A string, raw bytes, or nil, which is read as the empty string. -/
def string? : Bytes → Option (Bytes × Bytes)
  | [] => none
  | c :: bs => do
    let (n, bs) ← stringLength? c.toNat bs
    take? n bs

/-- The value of an integer that starts with a sign bit, modulo `2 ^ 64`. -/
def signExtend (width n : Nat) : Nat :=
  if n < Nat.pow 2 (8 * width - 1) then n else 0x10000000000000000 - (Nat.pow 2 (8 * width) - n)

/-- An integer of any width, modulo `2 ^ 64`; nil is zero. -/
def integer? : Bytes → Option (Nat × Bytes)
  | [] => none
  | c :: bs =>
    let code := c.toNat
    let signed (width : Nat) := (number? width bs).map fun (n, rest) => (signExtend width n, rest)
    if code = 0xC0 then some (0, bs)
    else if code ≤ 0x7F || 0xE0 ≤ code then some (signExtend 1 code, bs)
    else match code with
      | 0xCC => number? 1 bs
      | 0xCD => number? 2 bs
      | 0xCE => number? 4 bs
      | 0xCF => number? 8 bs
      | 0xD0 => signed 1
      | 0xD1 => signed 2
      | 0xD2 => signed 4
      | 0xD3 => signed 8
      | _ => none

/-- The number of entries of a map, after the byte that opens it. -/
def mapLength? (code : Nat) (bs : Bytes) : Option (Nat × Bytes) :=
  if 0x80 ≤ code && code ≤ 0x8F then some (code - 0x80, bs)
  else if code = 0xDE then number? 2 bs
  else if code = 0xDF then number? 4 bs
  else none

/-- The number of elements of an array, after the byte that opens it. -/
def arrayLength? (code : Nat) (bs : Bytes) : Option (Nat × Bytes) :=
  if 0x90 ≤ code && code ≤ 0x9F then some (code - 0x90, bs)
  else if code = 0xDC then number? 2 bs
  else if code = 0xDD then number? 4 bs
  else none

/-- The bytes of a value that is no container, after the byte that opens it. -/
def scalarLength? (code : Nat) (bs : Bytes) : Option (Nat × Bytes) :=
  if code ≤ 0x7F || 0xE0 ≤ code || code = 0xC0 || code = 0xC2 || code = 0xC3 then some (0, bs)
  else match code with
    | 0xCC | 0xD0 => some (1, bs)
    | 0xCD | 0xD1 => some (2, bs)
    | 0xCA | 0xCE | 0xD2 => some (4, bs)
    | 0xCB | 0xCF | 0xD3 => some (8, bs)
    | 0xD4 => some (2, bs)
    | 0xD5 => some (3, bs)
    | 0xD6 => some (5, bs)
    | 0xD7 => some (9, bs)
    | 0xD8 => some (17, bs)
    | 0xC7 => (number? 1 bs).map fun (n, bs) => (n + 1, bs)
    | 0xC8 => (number? 2 bs).map fun (n, bs) => (n + 1, bs)
    | 0xC9 => (number? 4 bs).map fun (n, bs) => (n + 1, bs)
    | _ => stringLength? code bs

/-- Skips `count` values; each takes at least a byte, so `fuel` is the number of bytes. -/
def skip? : Nat → Nat → Bytes → Option Bytes
  | _, 0, bs => some bs
  | 0, _ + 1, _ => none
  | _ + 1, _ + 1, [] => none
  | fuel + 1, count + 1, c :: bs =>
    let code := c.toNat
    match mapLength? code bs, arrayLength? code bs with
    | some (n, bs), _ => skip? fuel (2 * n + count) bs
    | none, some (n, bs) => skip? fuel (n + count) bs
    | none, none => do
      let (n, bs) ← scalarLength? code bs
      let (_, bs) ← take? n bs
      skip? fuel count bs

/-- Skips one value. -/
def skipValue? (bs : Bytes) : Option Bytes := skip? (bs.length + 1) 1 bs

end PineLang.MessagePack
