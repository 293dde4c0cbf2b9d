import PineLang.Cli.Session
import PineLang.Syntax.Dump
import PineLang.Syntax.Printer
import PineLang.Text.Diff
import PineLang.Token.Listing

/-!
# Commands on sources

Listing the tokens of a source, parsing sources, and printing a source in its canonical layout.
-/
namespace PineLang.Cli

/-- Loads a source, or fails with what is said before the fault. -/
def loadSource (topic : String) (path : String) : CliM (SourceFile × Library) := do
  match Library.empty.loadFile (← get).disk path with
  | (.ok f, l) => return (f, l)
  | (.error e, _) => failWith (topic ++ ": " ++ e.message)

/-- Lists the tokens of a source. The diagnostics come first. -/
def runTokenize (a : Arguments) (path : String) : CliM Unit := do
  let g ← readGlobals a
  let (f, l) ← loadSource "tokenization failed" path
  let ls := lexemes f.id f.content
  let bag := Bag.ofList g.limit ((ls.flatMap Lexeme.reports).map LexError.diagnostic)
  showBag g l bag
  let ts := tokensOf ls
  match a.text "format" "pretty" with
  | "pretty" => put (Listing.pretty f ts)
  | "json" => put (Listing.json f ts)
  | "yaml" => put (Listing.yaml f ts)
  | other => failWith ("unknown format: " ++ other)
  if bag.hasErrors then throw .reported

/-! ## Parsing -/

/-- Shows what parsing one file gave. -/
def showParsed (g : Globals) (dump : Bool) (path : String) (l : Library) (p : Parsed) : CliM Unit := do
  reportBag g l p.bag
  match p.tree with
  | some tree => if dump then put tree.dump else if !g.quiet then put (path ++ ": ok\n")
  | none => return ()

/-- Shows what parsing one file of a directory gave, and answers whether it failed. -/
def showEntry (g : Globals) (dump : Bool) (l : Library) (e : DirectoryEntry) : CliM Bool := do
  showBag g l e.parsed.bag
  match e.parsed.ok?, e.spanFault? with
  | none, _ => return true
  | some _, some fault =>
    warn (e.path ++ ": internal: " ++ fault ++ "\n")
    return true
  | some tree, none =>
    if dump then put ("== " ++ e.path ++ "\n" ++ tree.dump)
    return false

/-- Notes that a step was measured. -/
def notePhase (e : Environment) (name note : String) : CliM Unit :=
  modify fun s => { s with phases := s.phases ++ [⟨name, e.stepTime, note⟩] }

/-- Parses a file or the files of a directory. -/
def parsePath (e : Environment) (g : Globals) (dump : Bool) (path : String) : CliM Unit := do
  let d := (← get).disk
  match d.stat path with
  | .error f => failWith ("failed to stat path: " ++ f.message)
  | .ok (.file _ _) =>
    notePhase e "parse" path
    let (f, l) ← loadSource "parsing failed" path
    showParsed g dump path l (f.parse g.limit)
  | .ok .dir =>
    let (r, l) := Library.empty.parseDirectory d path g.limit
    notePhase e "parse" (toString ((r.toOption.map List.length).getD 0) ++ " files")
    let es ← orFail ("parsing failed: " ++ ·.message) r
    let failed := (← es.mapM (showEntry g dump l)).filter id
    if !g.quiet then put s!"parsed {es.length} files, {failed.length} failed\n"
    if !failed.isEmpty then throw .reported

/-- Parses a file or the files of a directory, and tells how long that took if asked to. -/
def runParse (e : Environment) (a : Arguments) (path : String) : CliM Unit := do
  let g ← readGlobals a
  endingWith (parsePath e g (a.isOn "dump") path) do
    if g.timings then warn (phaseSummary (← get).phases)

/-! ## Formatting -/

/-- Writes a formatted source back, unless it is the same. -/
def writeBack (g : Globals) (f : SourceFile) (path : String) (text : Bytes) : CliM Unit := do
  if text != f.content then
    let disk ← orFail (fun (x : DiskFault) => "failed to write " ++ Text.quoted path ++ ": " ++ x.message)
      ((← get).disk.write path text)
    modify fun s => { s with disk }
    if !g.quiet then put ("formatted " ++ path ++ "\n")

/-- Prints a source in its canonical layout, writes it back, or shows what would change. -/
def runFmt (a : Arguments) (path : String) : CliM Unit := do
  let g ← readGlobals a
  let (f, l) ← loadSource "parsing failed" path
  let p := f.parse g.limit
  reportBag g l p.bag
  match p.tree with
  | none => failWith (path ++ ": " ++ FormatFault.noFile.message)
  | some tree =>
    let text := utf8 (tree.format f.content)
    if a.isOn "write" then writeBack g f path text
    else if a.isOn "diff" then putBytes (Text.Diff.unified path (path ++ " (formatted)") f.content text)
    else putBytes text

end PineLang.Cli
