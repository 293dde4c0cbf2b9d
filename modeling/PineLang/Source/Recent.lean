/-!
# Adaptive caches

A cache of bounded size that keeps entries seen once apart from entries seen again, and remembers
the keys it dropped from either side: when one of them comes back, that side was too small, and the
balance between the two shifts.
-/
namespace PineLang

/-- Entries from the most to the least recent. -/
abbrev Recent (κ υ : Type) := List (κ × υ)

namespace Recent

variable {κ υ : Type} [BEq κ]

/-- Takes a key out. -/
def drop (r : Recent κ υ) (k : κ) : Recent κ υ := r.filter fun e => !(e.1 == k)

/-- Makes an entry the most recent one; beyond `size` entries the least recent goes. -/
def touch (r : Recent κ υ) (size : Nat) (k : κ) (v : υ) : Recent κ υ :=
  ((k, v) :: r.drop k).take size

end Recent

/-- A cache of `size` entries. `target` is the share of `once` it aims for. -/
structure AdaptiveCache (κ υ : Type) where
  size : Nat
  target : Nat := 0
  /-- Entries seen once. -/
  once : Recent κ υ := []
  /-- Entries seen again. -/
  again : Recent κ υ := []
  /-- Keys dropped from `once`. -/
  onceGone : Recent κ Unit := []
  /-- Keys dropped from `again`. -/
  againGone : Recent κ Unit := []
  deriving Repr

namespace AdaptiveCache

variable {κ υ : Type} [BEq κ]

/-- The value of a key. A key that is asked for counts as seen again. -/
def get? (c : AdaptiveCache κ υ) (k : κ) : Option (υ × AdaptiveCache κ υ) :=
  match c.once.lookup k with
  | some v => some (v, { c with once := c.once.drop k, again := c.again.touch c.size k v })
  | none =>
    (c.again.lookup k).map fun v => (v, { c with again := c.again.touch c.size k v })

/-- Drops one entry, from the side that has more than its share. -/
def evict (c : AdaptiveCache κ υ) (favourOnce : Bool) : AdaptiveCache κ υ :=
  let n := c.once.length
  if n > 0 && (n > c.target || (n == c.target && favourOnce)) then
    match c.once.getLast? with
    | some (k, _) =>
      { c with once := c.once.dropLast, onceGone := c.onceGone.touch c.size k () }
    | none => c
  else
    match c.again.getLast? with
    | some (k, _) =>
      { c with again := c.again.dropLast, againGone := c.againGone.touch c.size k () }
    | none => c

/-- Makes room if the cache is full. -/
def makeRoom (c : AdaptiveCache κ υ) (favourOnce : Bool) : AdaptiveCache κ υ :=
  if c.once.length + c.again.length ≥ c.size then c.evict favourOnce else c

/-- How far the balance shifts when a key of a list of `own` comes back. -/
def shift (own other : Nat) : Nat := if other > own then other / own else 1

/-- Keeps a value under a key. -/
def add (c : AdaptiveCache κ υ) (k : κ) (v : υ) : AdaptiveCache κ υ :=
  if (c.once.lookup k).isSome then
    { c with once := c.once.drop k, again := c.again.touch c.size k v }
  else if (c.again.lookup k).isSome then { c with again := c.again.touch c.size k v }
  else if (c.onceGone.lookup k).isSome then
    let step := shift c.onceGone.length c.againGone.length
    let c := { c with target := min (c.target + step) c.size }.makeRoom false
    { c with onceGone := c.onceGone.drop k, again := c.again.touch c.size k v }
  else if (c.againGone.lookup k).isSome then
    let step := shift c.againGone.length c.onceGone.length
    let c := { c with target := c.target - step }.makeRoom true
    { c with againGone := c.againGone.drop k, again := c.again.touch c.size k v }
  else
    let c := c.makeRoom false
    let c := if c.onceGone.length > c.size - c.target then { c with onceGone := c.onceGone.dropLast }
      else c
    let c := if c.againGone.length > c.target then { c with againGone := c.againGone.dropLast }
      else c
    { c with once := c.once.touch c.size k v }

end AdaptiveCache

end PineLang
