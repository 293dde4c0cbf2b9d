import PineLang.Text.Json
import PineLang.Trace.Level

/-!
# Tracers

A tracer records events: the beginnings and ends of nested spans, points and failures. What its
level does not admit leaves no trace, and neither does anything after it is closed.
-/
namespace PineLang.Trace

/-- A recorded event. A parent of zero is none. -/
structure Event where
  seq : Nat
  kind : Kind
  scope : Scope
  span : Nat := 0
  parent : Nat := 0
  name : String
  detail : String := ""
  extra : List (String × String) := []
  deriving Repr

/-- The event tells of a failure. -/
def Event.isFailure (e : Event) : Bool := e.kind == .failure

/-- What is written of an event besides its time, its level and its name. Further values stand in
    the order of their keys. -/
def Event.fields (e : Event) : List (String × Text.Json) :=
  [("seq", Text.Json.num e.seq), ("kind", Text.Json.str e.kind.text), ("scope", Text.Json.str e.scope.text),
    ("span", Text.Json.num e.span)] ++
  (if e.parent = 0 then [] else [("parent", Text.Json.num e.parent)]) ++
  (if e.detail.isEmpty then [] else [("detail", Text.Json.str e.detail)]) ++
  (e.extra.mergeSort fun a b => a.1 ≤ b.1).map fun (k, v) => (k, Text.Json.str v)

/-- A span that was begun; a span that is not admitted has no number. -/
structure OpenSpan where
  id : Nat := 0
  parent : Nat := 0
  scope : Scope := ⟨0⟩
  name : String := ""
  extra : List (String × String) := []
  deriving Repr

/-- The state of a tracer: what it recorded, and the open spans from the innermost out. -/
structure Tracer where
  level : Level
  isClosed : Bool := false
  lastSeq : Nat := 0
  lastSpan : Nat := 0
  events : List Event := []
  spans : List OpenSpan := []
  deriving Repr

namespace Tracer

/-- Anything at all is traced. -/
def isEnabled (t : Tracer) : Bool := t.level != .off

/-- The number of the innermost span that has one. -/
def current (t : Tracer) : Nat := ((t.spans.find? fun s => s.id != 0).map (·.id)).getD 0

/-- Records an event under the next number, unless the tracer is closed or off, or its level does
    not admit the event; failures are always admitted. -/
def emit (t : Tracer) (e : Event) : Tracer :=
  if t.isClosed || !t.isEnabled then t
  else if !e.isFailure && !t.level.admits e.scope then t
  else
    { t with lastSeq := t.lastSeq + 1, events := t.events ++ [{ e with seq := t.lastSeq + 1 }] }

/-- Begins a span under the current one. -/
def start (t : Tracer) (scope : Scope) (name : String) : Tracer :=
  if !t.level.admits scope then { t with spans := {} :: t.spans }
  else
    let s : OpenSpan := ⟨t.lastSpan + 1, t.current, scope, name, []⟩
    { t with lastSpan := s.id, spans := s :: t.spans }.emit
      { seq := 0, kind := .spanBegin, scope, span := s.id, parent := s.parent, name }

/-- Ends the innermost span. -/
def finish (t : Tracer) (detail : String) : Tracer :=
  match t.spans with
  | [] => t
  | s :: rest =>
    let t := { t with spans := rest }
    if s.id = 0 then t
    else t.emit { seq := 0, kind := .spanEnd, scope := s.scope, span := s.id, parent := s.parent,
                  name := s.name, detail, extra := s.extra }

/-- Attaches a value to the end of the innermost span; a later value of a key replaces an earlier
    one. -/
def attach (t : Tracer) (key value : String) : Tracer :=
  match t.spans with
  | [] => t
  | s :: rest =>
    if s.id = 0 then t
    else { t with spans := { s with extra := s.extra.filter (·.1 != key) ++ [(key, value)] } :: rest }

/-- Records a failure under the current span. -/
def fail (t : Tracer) (name detail : String) : Tracer :=
  t.emit { seq := 0, kind := .failure, scope := .pass, parent := t.current, name, detail }

/-- Closes the tracer. -/
def close (t : Tracer) : Tracer := { t with isClosed := true }

end Tracer

end PineLang.Trace
