import PineLang.Build.Version
import PineLang.Cache.MessagePack
import PineLang.Compile
import PineLang.Disk.Tree

/-!
# The cache of generated files

Generated files are kept on disk under a key that mixes the hash of the source with everything else
that they depend on. An entry of another layout counts as missing, and one that cannot be read as
damaged.
-/
namespace PineLang

namespace Cache

/-- The layout of entries. -/
def layout : Nat := 1

/-- The key of a source with this hash, compiled as this unit. -/
def key (hash : Bytes) (unit : String) (isProgram : Bool) : Bytes :=
  sha256 ([(layout % 256).toUInt8, (layout / 256).toUInt8] ++ hash ++ utf8 unit ++ [0] ++
    utf8 compilerVersion ++ [if isProgram then 1 else 0])

/-- What an entry holds. -/
structure CachedUnit where
  layout : Nat := 0
  unit : Bytes := []
  header : Bytes := []
  source : Bytes := []
  entry : Bytes := []
  deriving DecidableEq, Repr, Inhabited

namespace CachedUnit

/-- The entry of generated files. -/
def ofGenerated (g : Generated) : CachedUnit :=
  ⟨Cache.layout, utf8 g.unit, g.header, g.source, g.entry.getD []⟩

/-- The generated files of an entry. -/
def generated (c : CachedUnit) : Generated :=
  ⟨Text.lossy c.unit, c.header, c.source, if c.entry.isEmpty then none else some c.entry⟩

/-- The bytes of an entry. -/
def encode (c : CachedUnit) : Bytes :=
  let name (s : String) := MessagePack.string (utf8 s)
  MessagePack.smallMap [(name "Schema", MessagePack.word c.layout),
    (name "Unit", MessagePack.string c.unit), (name "Header", MessagePack.string c.header),
    (name "Source", MessagePack.string c.source), (name "Main", MessagePack.string c.entry)]

/-- Reads the value of a field; a field that is not known is skipped. -/
def decodeField? (c : CachedUnit) (name : Bytes) (bs : Bytes) : Option (CachedUnit × Bytes) :=
  match Text.string? name with
  | some "Schema" => (MessagePack.integer? bs).map fun (n, bs) => ({ c with layout := n % 65536 }, bs)
  | some "Unit" => (MessagePack.string? bs).map fun (s, bs) => ({ c with unit := s }, bs)
  | some "Header" => (MessagePack.string? bs).map fun (s, bs) => ({ c with header := s }, bs)
  | some "Source" => (MessagePack.string? bs).map fun (s, bs) => ({ c with source := s }, bs)
  | some "Main" => (MessagePack.string? bs).map fun (s, bs) => ({ c with entry := s }, bs)
  | _ => (MessagePack.skipValue? bs).map fun bs => (c, bs)

/-- Reads fields with their names. -/
def decodeFields? (c : CachedUnit) : Nat → Bytes → Option CachedUnit
  | 0, _ => some c
  | n + 1, bs => do
    let (name, bs) ← MessagePack.string? bs
    let (c, bs) ← c.decodeField? name bs
    decodeFields? c n bs

/-- Reads the fields in order, without names. -/
def decodeRow? (bs : Bytes) : Option CachedUnit := do
  let (layout, bs) ← MessagePack.integer? bs
  let (unit, bs) ← MessagePack.string? bs
  let (header, bs) ← MessagePack.string? bs
  let (source, bs) ← MessagePack.string? bs
  let (entry, _) ← MessagePack.string? bs
  return ⟨layout % 65536, unit, header, source, entry⟩

/-- Reads an entry: a map of fields, or a row of all of them. -/
def decode? : Bytes → Option CachedUnit
  | [] => none
  | c :: bs =>
    if c = 0xC0 then some {}
    else match MessagePack.mapLength? c.toNat bs, MessagePack.arrayLength? c.toNat bs with
      | some (n, bs), _ => decodeFields? {} n bs
      | none, some (0, _) => some {}
      | none, some (5, bs) => decodeRow? bs
      | none, _ => none

end CachedUnit

/-! ## Entries on disk -/

/-- Why an entry could not be used. -/
inductive Fault where
  | disk (fault : DiskFault)
  | damaged
  deriving DecidableEq, Repr

/-- A cache in a directory. -/
structure Store where
  dir : String
  deriving DecidableEq, Repr

namespace Store

/-- Opens a cache, making its directory. -/
def openIn (d : Disk) (dir : String) : Except DiskFault (Store × Disk) :=
  (d.makeDirs dir).map fun d => (⟨dir⟩, d)

/-- The directory of the entries. -/
def unitsDir (s : Store) : String := Path.join [s.dir, "units"]

/-- The file of a key. -/
def pathOf (s : Store) (key : Bytes) : String :=
  Path.join [s.dir, "units", Text.hexOfBytes key ++ ".mp"]

/-- Keeps an entry. -/
def put (s : Store) (d : Disk) (key : Bytes) (c : CachedUnit) : Except DiskFault Disk := do
  let d ← d.makeDirs s.unitsDir
  d.write (s.pathOf key) { c with layout := Cache.layout }.encode

/-- The entry of a key; an entry of another layout counts as missing. -/
def get (s : Store) (d : Disk) (key : Bytes) : Except Fault (Option CachedUnit) :=
  match d.read (s.pathOf key) with
  | .error ⟨_, _, .missing⟩ => .ok none
  | .error f => .error (.disk f)
  | .ok bs =>
    match CachedUnit.decode? bs with
    | none => .error .damaged
    | some c => .ok (if c.layout = Cache.layout then some c else none)

/-- Drops all entries. -/
def clear (s : Store) (d : Disk) : Except DiskFault Disk := d.removeAll s.unitsDir

/-- How many entries there are. -/
def count (s : Store) (d : Disk) : Nat :=
  match d.find s.unitsDir with
  | .ok (loc, .dir) => (d.names loc).length
  | _ => 0

end Store

/-! ## Compiling with a cache -/

/-- The generated files of a source, if the cache has them. -/
def lookup (s : Option Store) (d : Disk) (f : SourceFile) (isProgram : Bool) : Option Generated :=
  s.bind fun s =>
    match s.get d (key f.hash (unitName f.path) isProgram) with
    | .ok (some c) => some c.generated
    | _ => none

/-- Keeps the generated files of a source. A cache that cannot be written to is left alone. -/
def keep (s : Option Store) (d : Disk) (f : SourceFile) (g : Generated) (isProgram : Bool) : Disk :=
  match s with
  | none => d
  | some s =>
    match s.put d (key f.hash g.unit isProgram) (.ofGenerated g) with
    | .ok d => d
    | .error _ => d

end Cache

/-- Compiles a file unless the cache has its generated files, and keeps them. The answer says
    whether the cache had them. -/
def SourceFile.compileCached (f : SourceFile) (path : String) (o : CompileOptions)
    (s : Option Cache.Store) (d : Disk) : Compiled × Bool × Disk :=
  match Cache.lookup s d f o.isProgram with
  | some g => (⟨{ limit := o.limit }, .ok g⟩, true, d)
  | none =>
    let c := f.compile path o
    match c.outcome with
    | .ok g => (c, false, Cache.keep s d f g o.isProgram)
    | .error _ => (c, false, d)

end PineLang
