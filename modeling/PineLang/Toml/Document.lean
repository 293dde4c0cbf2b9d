import PineLang.Toml.Reader

/-!
# TOML documents

The statements of a document put together: nested tables, with the keys in the order they were
written. A table that was only implied by a longer key may still be written out once; everything
else is defined once.
-/
namespace PineLang.Toml

/-- What a key stands for: a plain value, a table, or an array of tables, of which the last is the
    one that is written to. -/
inductive Node where
  | leaf (v : Value)
  | table (entries : List (String × Node))
  | tables (items : List (List (String × Node)))
  deriving Inhabited

/-- The entries of a table. -/
abbrev Entries := List (String × Node)

/-- The name of a kind of node where it is expected to be another. -/
def Node.kindName : Node → String
  | leaf v => v.kindName
  | table _ => "map[string]interface \x7b\x7d"
  | tables _ => "[]map[string]interface \x7b\x7d"

/-- The entries that a node gives access to. -/
def Node.entries? : Node → Option Entries
  | leaf _ => none
  | table es => some es
  | tables items => items.getLast?

/-- The node with other entries. -/
def Node.withEntries (es : Entries) : Node → Node
  | leaf v => leaf v
  | table _ => table es
  | tables items => tables (items.dropLast ++ [es])

namespace Entries

/-- Puts a node under a name, in the place of one that is there. -/
def put (es : Entries) (name : String) (n : Node) : Entries :=
  if (es.lookup name).isSome then es.map fun e => if e.1 == name then (name, n) else e
  else es ++ [(name, n)]

/-- The entries of the table with this key; none if there is no such table. -/
def inside? (es : Entries) : Key → Option Entries
  | [] => some es
  | k :: ks => (((es.lookup k).bind Node.entries?).map fun sub => inside? sub ks).getD none

/-- Puts a node under a name in the table with this key. -/
def putIn (es : Entries) (name : String) (n : Node) : Key → Entries
  | [] => es.put name n
  | k :: ks =>
    match es.lookup k with
    | some node =>
      match node.entries? with
      | some sub => es.put k (node.withEntries (putIn sub name n ks))
      | none => es
    | none => es

end Entries

/-- A document as far as it was read. `implied` holds the keys of tables that were not written out,
    `arrays` the keys of arrays, `lines` the line of each value, and `order` all keys as they were
    written. -/
structure Document where
  root : Entries := []
  implied : List Key := []
  arrays : List Key := []
  lines : List (Key × Nat) := []
  order : List Key := []
  deriving Inhabited

namespace Document

/-- What stands under a name in the table with this key. -/
def get? (d : Document) (context : Key) (name : String) : Option Node :=
  (d.root.inside? context).bind (List.lookup name)

/-- The first table on the way that is none. -/
def blocked? (d : Document) (context : Key) : Option Key :=
  ((List.range context.length).map fun n => context.take (n + 1)).find? fun k =>
    (d.root.inside? k).isNone

/-- Defines a name in a table. An array may be replaced, and an implied table becomes a written
    one. -/
def define (d : Document) (context : Key) (name : String) (n : Node) : Except String Document :=
  let key := context ++ [name]
  match d.blocked? context with
  | some k => .error ("Key '" ++ keyText k ++ "' has already been defined.")
  | none =>
    if (d.get? context name).isNone then .ok { d with root := d.root.putIn name n context }
    else if d.arrays.contains key then
      .ok { d with root := d.root.putIn name n context, implied := d.implied.filter (· != key) }
    else if d.implied.contains key then .ok { d with implied := d.implied.filter (· != key) }
    else .error ("Key '" ++ keyText key ++ "' has already been defined.")

/-- Makes the tables above a key that are not there yet. -/
def implyAbove (d : Document) (key : Key) : Except String Document :=
  (List.range (key.length - 1)).foldlM (fun (d : Document) n =>
    let above := key.take n
    let name := key[n]?.getD ""
    match d.get? above name with
    | none =>
      .ok { d with implied := (above ++ [name]) :: d.implied, root := d.root.putIn name (.table []) above }
    | some (.leaf _) => .error ("Key '" ++ keyText (above ++ [name]) ++ "' was already created as a hash.")
    | some _ => .ok d) d

/-- Opens the table with this key. -/
def openTable (d : Document) (key : Key) : Except String Document := do
  (← d.implyAbove key).define key.dropLast (key.getLastD "") (.table [])

/-- Adds a table to the array of tables with this key. -/
def openItem (d : Document) (key : Key) : Except String Document := do
  let d ← d.implyAbove key
  let above := key.dropLast
  let name := key.getLastD ""
  match d.get? above name with
  | none => .ok { d with root := d.root.putIn name (.tables [[]]) above }
  | some (.tables items) => .ok { d with root := d.root.putIn name (.tables (items ++ [[]])) above }
  | some _ => .error ("Key '" ++ keyText key ++ "' was already created and cannot be used as an array.")

/-- Opens a table that a longer key implies. -/
def openImplied (d : Document) (key : Key) : Except String Document :=
  { d with implied := key :: d.implied }.openTable key

/-- Opens the tables that the parts of a dotted key imply, all but its last part, and notes the
    key. -/
def openParts (d : Document) (context key : Key) : Except String Document := do
  let d ← (List.range (key.length - 1)).foldlM (fun d n => openImplied d (context ++ key.take (n + 1))) d
  return { d with order := d.order ++ [context ++ key] }

/-- Notes the line of an array. -/
def noteArray (d : Document) (key : Key) (line : Nat) : Document :=
  { d with lines := (key, line) :: d.lines }

/-- Notes the line of a value that is no array. -/
def noteLine (d : Document) (key : Key) (line : Nat) : Document :=
  { d with lines := (key, line) :: d.lines, arrays := d.arrays.filter (· != key) }

/-- Names the line and the key of a fault. -/
def located {α : Type} (line : Nat) (key : Key) : Except String α → Except Fault α
  | .ok a => .ok a
  | .error m => .error ⟨some line, key, m⟩

mutual

/-- Defines the value of a key. The pairs of an inline table are defined one by one. -/
def assign (context key : Key) (line : Nat) (d : Document) : Value → Except Fault Document
  | .inline pairs => do
    let full := context ++ key
    let d ← located line full (d.openParts context key)
    let d ← located line full ({ d with implied := full :: d.implied }.openTable full)
    let d ← assignAll full d pairs
    let d ← located line full (d.define full.dropLast (full.getLastD "") (.leaf (.inline [])))
    return d.noteLine full line
  | .array items => do
    let full := context ++ key
    let d ← located line full (d.openParts context key)
    let d ← assignItems full line { d with arrays := full :: d.arrays } items
    let d ← located line full (d.define full.dropLast (full.getLastD "") (.leaf (.array items)))
    return d.noteArray full line
  | v => do
    let full := context ++ key
    let d ← located line full (d.openParts context key)
    let d ← located line full (d.define full.dropLast (full.getLastD "") (.leaf v))
    return d.noteLine full line

/-- Defines pairs one after the other. -/
def assignAll (context : Key) (d : Document) : List (Key × Nat × Value) → Except Fault Document
  | [] => .ok d
  | (key, line, v) :: rest => do assignAll context (← assign context key line d v) rest

/-- Checks the tables among the items of an array, as if they were written out. -/
def assignItems (full : Key) (line : Nat) (d : Document) : List Value → Except Fault Document
  | [] => .ok d
  | .inline pairs :: rest => do
    let d ← located line full ({ d with implied := full :: d.implied }.openItem full)
    assignItems full line (← assignAll full d pairs) rest
  | .array items :: rest => do assignItems full line (← assignItems full line d items) rest
  | _ :: rest => assignItems full line d rest

end

/-- Puts a statement into effect; the answer has the table that further keys belong to. -/
def run (d : Document) (context : Key) : Statement → Except Fault (Document × Key)
  | .table name line => do
    let d ← located line context (d.openTable name)
    return ({ d with order := d.order ++ [name] }.noteLine name line, name)
  | .item name line => do
    let d ← located line context (d.openItem name)
    return ({ d with order := d.order ++ [name] }.noteLine name line, name)
  | .pair key line v => do return (← assign context key line d v, context)

/-- Reads statements to the end of the text, up to `fuel` of them. -/
def readFrom (d : Document) (context : Key) : Nat → Cursor → Except Fault Document
  | 0, _ => .ok d
  | fuel + 1, c => do
    match ← readStatement context { c with key := context } with
    | (none, _) => .ok d
    | (some s, c) =>
      let (d, context) ← d.run context s
      let (_, c) ← readEnd { c with key := context }
      readFrom d context fuel c

/-- The document with this text. -/
def ofBytes (bs : Bytes) : Except Fault Document :=
  readFrom {} [] (bs.length + 1) (Cursor.ofBytes bs)

end Document

end PineLang.Toml
