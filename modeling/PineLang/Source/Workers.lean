import PineLang.Source.Directory

/-!
# Directories parsed by several workers

The files of a directory are parsed at the same time, as many at once as there are places. A worker has the lexemes,
the items and the bag of its file to itself. Workers share the list of results, in which each writes to the place of its
own file, the sign that the work is called off, and the fault that was reported first. A step is one turn of the loop
over the items of a file, or one access to what is shared; a schedule says who takes the next step.
-/
namespace PineLang

/-- One turn of the loop over the items of a file: the items it adds, or none where the file ends. -/
def Parser.turn (cancelled : Bool) (n : Nat) : Parser (Option (List Item)) := do
  match ← kind with
  | .newLine =>
    let _ ← advance
    return some []
  | .eof => return none
  | _ =>
    if cancelled then fail .cancelled
    else
      let (i, closed) ← item n
      endOfItem closed
      return some [i]

/-- The tree of the items that were read from lexemes. -/
def treeOf (ls : List Lexeme) : Except SyntaxError (List Item × List Lexeme) → Except SyntaxError File
  | .error e => .error e
  | .ok (items, rest) =>
    let first := (ls.head?.map fun l => l.toToken.span).getD {}
    let last := (rest.head?.map fun l => l.toToken.span).getD {}
    .ok ⟨first.cover last, items⟩

/-- What parsing a file gives where its items end so. -/
def SourceFile.conclude (f : SourceFile) (limit : Nat) (read : Except SyntaxError (List Item × List Lexeme)) : Parsed :=
  let ls := lexemes f.id f.content
  let r := treeOf ls read
  let bag := Bag.ofList limit (uniqueReports (parseReports ls r))
  match r with
  | .ok tree => ⟨some tree, bag, false⟩
  | .error e => ⟨none, bag, e.fault == .cancelled⟩

namespace Workers

/-- How far a worker is with its file. -/
inductive Phase where
  | idle
  /-- At the next turn of the loop over the items, with the depth that is left for it. -/
  | reading (depth : Nat) (items : List Item) (rest : List Lexeme)
  | parsed (p : Parsed)
  /-- The result is in the list, but nothing is said yet of its spans. -/
  | stored (p : Parsed)
  | failed
  | leaving
  | ended

/-- The result of a file, and what is wrong with the spans of its tree. -/
structure Outcome where
  entry : DirectoryEntry
  fault : Option String := none

/-- The workers and what they share. The first `next` files have a worker, and those in `busy` take up a place. -/
structure State where
  jobs : List (String × SourceFile) := []
  limit : Nat := 0
  places : Nat := 0
  next : Nat := 0
  phases : Nat → Phase := fun _ => .idle
  busy : List Nat := []
  results : Nat → Option Outcome := fun _ => none
  isCancelled : Bool := false
  fault : Option DirectoryFault := none
  answer : Option (Except DirectoryFault (List (Option Outcome))) := none

/-- One entry of a schedule: the next file gets a worker, a worker goes on, all are waited for, or the work is called off
    from outside. -/
inductive Action where
  | start
  | move (i : Nat)
  | finish
  | cancel
  deriving DecidableEq, Repr

namespace State

/-- The state with a worker in a phase. -/
def set (s : State) (i : Nat) (p : Phase) : State :=
  { s with phases := fun j => if j = i then p else s.phases j }

/-- The state with a result in the list. -/
def store (s : State) (i : Nat) (o : Outcome) : State :=
  { s with results := fun j => if j = i then some o else s.results j }

/-- The next file gets a worker, if there is a place for it. -/
def start (s : State) : Option State :=
  match s.jobs[s.next]? with
  | none => none
  | some (_, f) =>
    if s.busy.length < s.places then
      let ls := lexemes f.id f.content
      some { s.set s.next (.reading (Parser.depthBound ls.length) [] ls) with next := s.next + 1, busy := s.next :: s.busy }
    else none

/-- What a turn of the loop over the items leads to. -/
def read (s : State) (f : SourceFile) (items : List Item) (rest : List Lexeme) : Nat → Phase
  | 0 => .parsed (f.conclude s.limit (.error ⟨.exhausted, rest⟩))
  | depth + 1 =>
    match Parser.turn s.isCancelled depth rest with
    | .ok (none, rest) => .parsed (f.conclude s.limit (.ok (items, rest)))
    | .ok (some more, rest) => .reading depth (items ++ more) rest
    | .error e => if e.fault == .cancelled then .failed else .parsed (f.conclude s.limit (.error e))

/-- The next step of a worker. -/
def move (s : State) (i : Nat) : Option State :=
  match s.jobs[i]? with
  | none => none
  | some (path, f) =>
    match s.phases i with
    | .idle | .ended => none
    | .reading depth items rest => some (s.set i (s.read f items rest depth))
    | .parsed p => some ((s.set i (.stored p)).store i ⟨⟨path, f, p⟩, none⟩)
    | .stored p =>
      let entry : DirectoryEntry := ⟨path, f, p⟩
      some ((s.set i .leaving).store i ⟨entry, entry.spanFault?⟩)
    | .failed => some { s.set i .leaving with isCancelled := true, fault := s.fault.or (some .cancelled) }
    | .leaving => some { s.set i .ended with busy := s.busy.filter (· ≠ i) }

/-- All workers have left: the answer is the first fault, or the list of the results. -/
def finish (s : State) : Option State :=
  if s.next = s.jobs.length ∧ s.busy = [] then
    some { s with answer := some (match s.fault with
      | some f => .error f
      | none => .ok ((List.range s.jobs.length).map s.results)) }
  else none

/-- One step of a schedule, if it is possible. Nothing goes on after the answer. -/
def step (s : State) (a : Action) : Option State :=
  if s.answer.isSome then none
  else match a with
    | .start => s.start
    | .move i => s.move i
    | .finish => s.finish
    | .cancel => some { s with isCancelled := true }

/-- The state after a schedule. -/
def run (s : State) (schedule : List Action) : Option State := schedule.foldlM step s

end State

/-- How many files are parsed at once: as many as are asked for, else as there are processors, and no more than there
    are. -/
def placesFor (processors : Nat) (jobs : Int) (files : Nat) : Nat :=
  min (if jobs ≤ 0 then processors else jobs.toNat) files

end Workers

/-- The state in which the source files below a directory are about to be parsed. They are loaded one after the other,
    so what is wrong with a path is the answer before there are workers. -/
def Library.dispatch (l : Library) (d : Disk) (dir : String) (limit processors : Nat) (jobs : Int) : Workers.State :=
  match sourcesBelow d dir with
  | .error f => { answer := some (.error (.disk f)) }
  | .ok [] => { answer := some (.ok []) }
  | .ok paths =>
    match (l.loadFiles d paths).1 with
    | .error f => { answer := some (.error (.load f)) }
    | .ok files => { jobs := paths.zip files, limit, places := Workers.placesFor processors jobs paths.length }

end PineLang
