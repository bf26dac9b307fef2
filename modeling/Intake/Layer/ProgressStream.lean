import Intake.Layer.Progress

/-!
# Streams of progress events

Events queue up until the one consumer reads them. A closed stream stays
closed.

* `ProgressStream.next` reads an event.
* `ProgressStream.awaited` is what a session makes of a read.
-/

namespace Intake

/-- What a read of a stream gives. -/
inductive ProgressRead where
  | event (p : Progress)
  | closed
  | failed (e : Fault)
  /-- Nothing has arrived yet. -/
  | waiting

/-- Events that arrived and were not read. -/
structure ProgressStream where
  arrived : List Progress := []
  /-- The end was put behind the events that arrived. -/
  ended : Bool := false
  /-- The end was read. -/
  closed : Bool := false
  /-- Every read fails. -/
  broken : Option Fault := none

namespace ProgressStream

/-- Puts an event in. What comes behind the end is never read. -/
def put (s : ProgressStream) (p : Progress) : ProgressStream :=
  if s.ended then s else { s with arrived := s.arrived ++ [p] }

/-- Puts the end in. -/
def finish (s : ProgressStream) : ProgressStream := { s with ended := true }

/-- Reads the next event. -/
def next (s : ProgressStream) : ProgressRead × ProgressStream :=
  match s.broken with
  | some e => (.failed e, s)
  | none =>
    if s.closed then (.closed, s)
    else
      match s.arrived with
      | p :: rest => (.event p, { s with arrived := rest })
      | [] => if s.ended then (.closed, { s with closed := true }) else (.waiting, s)

/-- What a session is told of a read: a closed stream reads as done, and a
failing read as a fault. A reader that was cancelled or given up tells it
nothing. -/
def awaited : ProgressRead → Option Progress
  | .event p => some p
  | .closed => some { done := true }
  | .failed e => if e.isSilent then none else some (.failed e)
  | .waiting => none

theorem next_of_closed {s : ProgressStream} (hb : s.broken = none) (h : s.closed = true) :
    s.next = (.closed, s) := by
  simp [next, hb, h]

end ProgressStream
end Intake
