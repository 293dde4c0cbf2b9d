import PineLang.Diag.Reporter

/-!
# Streams that are shared

A stream that several threads use at once. A report goes through a channel to the collector of the
stream, which puts it into a buffer, and the buffer is handed out. A step is one access to a lock,
to the flag that says that the stream is closed, to the channel or to the buffer; a schedule says
who takes the next step.
-/
namespace PineLang
namespace SharedStream

/-- A report on its way, with the thread that made it. -/
structure Item (ι : Type) where
  sender : ι
  diagnostic : Diagnostic
  deriving DecidableEq, Repr

/-- What a thread can ask of a stream. -/
inductive Call where
  | report (d : Diagnostic)
  | drain
  | close

/-- How far a thread is in its call. The phases from `testing` to `leaving` hold the lock of the
    flag for reading, those from `closing` to `unlocking` for writing, and `taking` and `handing`
    hold the lock of the buffer. -/
inductive Phase (ι : Type) where
  | idle
  | entering (d : Diagnostic)
  | testing (d : Diagnostic)
  | sending (d : Diagnostic)
  | leaving
  | locking
  | closing
  | shutting
  | unlocking
  | waiting
  | wanting (closes : Bool)
  | taking (closes : Bool)
  | handing (closes : Bool) (out : List (Item ι))

/-- How far the collector is. It holds the lock of the buffer in `storing` and `stored`. -/
inductive Collector (ι : Type) where
  | receiving
  | holding (x : Item ι)
  | storing (x : Item ι)
  | stored
  | finished

/-- Who holds the lock of the buffer. -/
inductive Owner (ι : Type) where
  | thread (i : ι)
  | collector

/-- What a thread learns of a stream: whether it is open for a report, and what a drain or a close
    hands out. -/
inductive Event (ι : Type) where
  | saw (x : Item ι) (isOpen : Bool)
  | returned (i : ι) (closes : Bool) (out : List (Item ι))
  deriving DecidableEq, Repr

/-- A stream and the threads that use it. `readers` and `writer` hold the lock of the flag; `isShut`
    says that the channel is closed, and `crashed` that it was used in spite of it. -/
structure State (ι : Type) where
  capacity : Nat
  phases : ι → Phase ι := fun _ => .idle
  readers : List ι := []
  writer : Option ι := none
  isClosed : Bool := false
  channel : List (Item ι) := []
  isShut : Bool := false
  collector : Collector ι := .receiving
  owner : Option (Owner ι) := none
  buffer : List (Item ι) := []
  crashed : Bool := false
  history : List (Event ι) := []

/-- One entry of a schedule: a thread begins a call or goes on in it, or hands its report to a
    collector that waits for one, or the collector goes on. -/
inductive Action (ι : Type) where
  | call (i : ι) (c : Call)
  | move (i : ι)
  | handOver (i : ι)
  | collect

/-- The phase in which a call begins. -/
def Call.first {ι : Type} : Call → Phase ι
  | report d => .entering d
  | drain => .wanting false
  | close => .locking

variable {ι : Type} [DecidableEq ι]

namespace State

/-- The state with a thread in a phase. -/
def set (s : State ι) (i : ι) (p : Phase ι) : State ι :=
  { s with phases := fun j => if j = i then p else s.phases j }

/-- The next step of a thread in its call; there is none while it has to wait. A reader may enter
    while a writer waits. -/
def move (s : State ι) (i : ι) : Option (State ι) :=
  match s.phases i with
  | .idle => none
  | .entering d => if s.writer.isNone then some { s.set i (.testing d) with readers := i :: s.readers } else none
  | .testing d =>
    some { s.set i (if s.isClosed then .leaving else .sending d) with
      history := s.history ++ [.saw ⟨i, d⟩ !s.isClosed] }
  | .sending d =>
    if s.isShut then some { s with crashed := true }
    else if s.channel.length < s.capacity then some { s.set i .leaving with channel := s.channel ++ [⟨i, d⟩] }
    else none
  | .leaving => some { s.set i .idle with readers := s.readers.filter (· ≠ i) }
  | .locking =>
    if s.writer.isNone && s.readers.isEmpty then some { s.set i .closing with writer := some i } else none
  | .closing => if s.isClosed then some (s.set i .unlocking) else some { s.set i .shutting with isClosed := true }
  | .shutting => if s.isShut then some { s with crashed := true } else some { s.set i .unlocking with isShut := true }
  | .unlocking => some { s.set i .waiting with writer := none }
  | .waiting => match s.collector with
    | .finished => some (s.set i (.wanting true))
    | _ => none
  | .wanting closes =>
    if s.owner.isNone then some { s.set i (.taking closes) with owner := some (.thread i) } else none
  | .taking closes => some { s.set i (.handing closes s.buffer) with buffer := [] }
  | .handing closes out =>
    some { s.set i .idle with owner := none, history := s.history ++ [.returned i closes out] }

/-- The next step of the collector. It ends when the channel is closed and empty. -/
def collect (s : State ι) : Option (State ι) :=
  match s.collector with
  | .receiving => match s.channel with
    | x :: rest => some { s with collector := .holding x, channel := rest }
    | [] => if s.isShut then some { s with collector := .finished } else none
  | .holding x => if s.owner.isNone then some { s with collector := .storing x, owner := some .collector } else none
  | .storing x => some { s with collector := .stored, buffer := s.buffer ++ [x] }
  | .stored => some { s with collector := .receiving, owner := none }
  | .finished => none

/-- A thread that sends hands its report to the collector, past an empty channel. -/
def handOver (s : State ι) (i : ι) : Option (State ι) :=
  match s.phases i, s.collector, s.channel with
  | .sending d, .receiving, [] =>
    if s.isShut then none else some { s.set i .leaving with collector := .holding ⟨i, d⟩ }
  | _, _, _ => none

/-- A thread begins a call. -/
def begin (s : State ι) (i : ι) (c : Call) : Option (State ι) :=
  match s.phases i with
  | .idle => some (s.set i c.first)
  | _ => none

/-- One step of a schedule, if it is possible. Nothing goes on after a crash. -/
def step (s : State ι) (a : Action ι) : Option (State ι) :=
  if s.crashed then none
  else match a with
    | .call i c => s.begin i c
    | .move i => s.move i
    | .handOver i => s.handOver i
    | .collect => s.collect

/-- The state after a schedule. -/
def run (s : State ι) (schedule : List (Action ι)) : Option (State ι) := schedule.foldlM step s

end State

/-! ## What a history tells -/

/-- The reports that were made while the stream was open. -/
def accepted (history : List (Event ι)) : List (Item ι) :=
  history.filterMap fun
    | .saw x true => some x
    | _ => none

/-- All that was handed out, in the order of the lock of the buffer. -/
def handedOut (history : List (Event ι)) : List (Item ι) :=
  history.flatMap fun
    | .returned _ _ out => out
    | .saw _ _ => []

/-- A close has returned. -/
def hasClosed (history : List (Event ι)) : Bool :=
  history.any fun
    | .returned _ closes _ => closes
    | .saw _ _ => false

/-- The diagnostics that a thread reported. -/
def ofSender (i : ι) (xs : List (Item ι)) : List Diagnostic := (xs.filter (·.sender = i)).map (·.diagnostic)

end SharedStream
end PineLang
