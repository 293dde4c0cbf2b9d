import PineLang.Build.Compiler
import PineLang.Disk.Tree
import PineLang.Text.Space
import PineLang.Toml.Document

/-!
# Manifests

A manifest describes a project: its name, its main source and how it is built. It is a TOML
document with two tables, in which no other keys may stand.
-/
namespace PineLang

/-- The name of a manifest file. -/
def manifestName : String := "pine.toml"

/-- What a manifest says. -/
structure Config where
  name : String := ""
  main : String := ""
  compiler : String := ""
  opt : String := ""
  dir : String := ""
  output : String := ""
  deriving DecidableEq, Repr, Inhabited

/-- A table of a manifest: its name, the word for its kind, and its fields. -/
structure Section where
  name : String
  kind : String
  fields : List (String × (Config → String → Config))

/-- The tables of a manifest. -/
def manifestSections : List Section :=
  [⟨"package", "project.PackageConfig",
      [("name", fun c s => { c with name := s }), ("main", fun c s => { c with main := s })]⟩,
   ⟨"build", "project.BuildConfig",
      [("compiler", fun c s => { c with compiler := s }), ("opt", fun c s => { c with opt := s }),
       ("dir", fun c s => { c with dir := s }), ("output", fun c s => { c with output := s })]⟩]

/-- A letter without its case. The long s and the kelvin sign are letters of ASCII too. -/
def foldCase (c : Char) : Char :=
  if c.toNat = 0x17F then 's' else if c.toNat = 0x212A then 'k' else c.toLower

/-- Two names are the same but for their case. -/
def sameName (a b : String) : Bool := a.toList.map foldCase == b.toList.map foldCase

/-- Why a manifest does not serve. -/
inductive ManifestFault where
  | unreadable (fault : DiskFault)
  | malformed (fault : Toml.Fault)
  | unknownKey (key : Toml.Key)
  | noPackage
  | noName
  | noMain
  | badCompiler (name : String)
  | badOpt (name : String)
  deriving DecidableEq, Repr

/-- What is said about a fault of the manifest at a path. -/
def ManifestFault.message (path : String) (f : ManifestFault) : String :=
  path ++ ": " ++ match f with
    | unreadable f => "failed to parse TOML: " ++ f.message
    | malformed f => "failed to parse TOML: " ++ f.text
    | unknownKey k => "unknown key " ++ Text.quoted (Toml.keyText k)
    | noPackage => "missing [package]"
    | noName => "missing [package].name"
    | noMain => "missing [package].main"
    | badCompiler s => "[build].compiler: " ++ CCompiler.fault s
    | badOpt s => "[build].opt: " ++ OptLevel.fault s

/-- The text is not a TOML document of the right kinds of values. -/
def ManifestFault.isMalformed : ManifestFault → Bool
  | unreadable _ | malformed _ => true
  | _ => false

namespace Config

/-- A configuration together with the keys it was read from. -/
abbrev Taken := Config × List Toml.Key

/-- A value of the wrong kind. -/
def misplaced {α : Type} (d : Toml.Document) (key : Toml.Key) (message : String) :
    Except ManifestFault α :=
  .error (.malformed ⟨d.lines.lookup key, key, message⟩)

/-- Takes an entry of a table, if it is one of its fields; a field is a string. -/
def takeField (d : Toml.Document) (s : Section) (table : String) (t : Taken)
    (e : String × Toml.Node) : Except ManifestFault Taken :=
  match s.fields.find? fun f => sameName f.1 e.1 with
  | none => .ok t
  | some (_, set) =>
    let key := [table, e.1]
    match e.2 with
    | .leaf (.text v) => .ok (set t.1 v, key :: t.2)
    | n => misplaced d key ("incompatible types: TOML value has type " ++ n.kindName ++
        "; destination has type string")

/-- Takes an entry of the document, if it is one of the tables of a manifest. -/
def takeSection (d : Toml.Document) (t : Taken) (e : String × Toml.Node) :
    Except ManifestFault Taken :=
  match manifestSections.find? fun s => sameName s.name e.1 with
  | none => .ok t
  | some s =>
    match e.2 with
    | .table entries => entries.foldlM (takeField d s e.1) (t.1, [e.1] :: t.2)
    | n => misplaced d [e.1] ("type mismatch for " ++ s.kind ++ ": expected table but found " ++
        n.kindName)

/-- The text is empty but for white space. -/
def isBlank (s : String) : Bool := s.toList.all Text.isSpace

/-- The configuration of a document. -/
def ofDocument (d : Toml.Document) : Except ManifestFault Config := do
  let (c, taken) ← d.root.foldlM (takeSection d) ({}, [])
  match d.order.find? fun k => !taken.contains k with
  | some k => .error (.unknownKey k)
  | none =>
    if (d.get? [] "package").isNone then .error .noPackage
    else if isBlank c.name then .error .noName
    else if isBlank c.main then .error .noMain
    else if (CCompiler.ofName? c.compiler).isNone then .error (.badCompiler c.compiler)
    else if (OptLevel.ofText? c.opt).isNone then .error (.badOpt c.opt)
    else .ok c

/-- The configuration in a text. -/
def ofBytes (bs : Bytes) : Except ManifestFault Config :=
  match Toml.Document.ofBytes bs with
  | .error f => .error (.malformed f)
  | .ok d => ofDocument d

/-- The configuration in a file. -/
def load (d : Disk) (path : String) : Except ManifestFault Config :=
  match d.read path with
  | .error f => .error (.unreadable f)
  | .ok bs => ofBytes bs

end Config

end PineLang
