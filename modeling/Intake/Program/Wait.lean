import Intake.Program.Script

/-!
# Waits for programs

A caller that has started a program waits for its end, for the time limit
and for the cancellation. When it wakes up and the program has not ended, it
stops the program, once, and waits for the end; only then it goes on.

* `Wait.pass` takes what happens at one instant and lets the caller act.
* `Script.instants` tells a program of known times instant by instant, and
  `Script.awaited` waits for it.
* `Script.outcome` is what the caller comes to.
-/

namespace Intake

/-- What happens while a program is waited for. -/
inductive Wait.Event where
  /-- The program ends, by itself or because it was stopped. -/
  | ends
  | fires
  /-- The time limit passes. -/
  | expires
  deriving DecidableEq, Repr

/-- A program that was started and the caller that waits for it. -/
structure Wait where
  running : Bool := true
  fired : Bool := false
  expired : Bool := false
  /-- How often the caller has tried to stop the program. -/
  stops : Nat := 0
  /-- What the caller has come to; it is still there while there is nothing. -/
  left : Option Outcome := none
  deriving DecidableEq, Repr

namespace Wait

/-- One thing happens. -/
def happen (w : Wait) : Event → Wait
  | .ends => { w with running := false }
  | .fires => { w with fired := true }
  | .expires => { w with expired := true }

/-- What the caller does next. A program that is gone when it is stopped
says so, which is passed over. -/
def act (w : Wait) : Wait :=
  if w.stops = 0 then
    if ! w.running then { w with left := some .ended }
    else if w.fired || w.expired then { w with stops := w.stops + 1 }
    else w
  else if ! w.running then { w with left := some (if w.fired then .cancelled else .timedOut) }
  else w

/-- An instant passes, unless the caller has gone on before. -/
def pass (w : Wait) (instant : List Event) : Wait :=
  if w.left.isSome then w else (instant.foldl happen w).act

/-- Instants pass, one after the other. -/
def run (w : Wait) (instants : List (List Event)) : Wait := instants.foldl pass w

/-- What the caller has come to. -/
def outcome (w : Wait) : Outcome := w.left.getD .waiting

end Wait

namespace Script

/-- Whether the cancellation has fired by the time at which a stopped
program is gone. At its end only a program fires it that ends by itself. -/
def firesBy (s : Script) (gone : Float) : Bool :=
  match s.firing with
  | .never => false
  | .atStart => true
  | .atEnd => false
  | .after t => ! decide (gone < t)

/-- Whether the cancellation has fired when a run is over. -/
def fires (s : Script) (o : Outcome) : Bool :=
  match s.firing with
  | .never => false
  | .atStart => true
  | .atEnd => o == .ended
  | .after t =>
    match o with
    | .ended => s.endTime.any fun e => ! decide (e < t)
    | .cancelled => true
    | .timedOut => false
    | .waiting => false

/-- Whether a program that is stopped at its time limit is still there when
the cancellation fires. -/
def firesLate (s : Script) (limit : Option Float) : Bool :=
  limit.any fun l => s.firesBy (l + s.lingers)

/-- What happens until a caller that waits for a program goes on, instant by
instant. The flag says whether it waits for the cancellation too. -/
def instants (s : Script) (limit : Option Float) (heeded : Bool) : List (List Wait.Event) :=
  match race s.ending limit (if heeded then s.fireTime else none) with
  | .ended => [.ends :: if heeded && s.fires .ended then [.fires] else []]
  | .cancelled => [[.fires], [.ends]]
  | .timedOut => [.expires] ::
      if heeded && s.firesLate limit then [[.fires], [.ends]] else [[.ends]]
  | .waiting => []

/-- A wait for the program. -/
def awaited (s : Script) (limit : Option Float) (heeded : Bool) : Wait :=
  Wait.run {} (s.instants limit heeded)

/-- How a run of the program goes. A cancellation that nobody waits for
plays no part. -/
def outcome (s : Script) (limit : Option Float) (heeded : Bool) : Outcome :=
  (s.awaited limit heeded).outcome

/-- What comes first decides, but for a cancellation that fires while the
program is stopped at its time limit. -/
theorem outcome_eq (s : Script) (limit : Option Float) (heeded : Bool) :
    s.outcome limit heeded =
      match race s.ending limit (if heeded then s.fireTime else none) with
      | .timedOut => if heeded && s.firesLate limit then .cancelled else .timedOut
      | o => o := by
  rw [outcome, awaited, instants]
  cases race s.ending limit (if heeded then s.fireTime else none) with
  | ended => cases heeded && s.fires .ended <;> rfl
  | timedOut => cases heeded && s.firesLate limit <;> rfl
  | cancelled => rfl
  | waiting => rfl

theorem outcome_of_race {s : Script} {limit : Option Float} {heeded : Bool} {o : Outcome}
    (h : race s.ending limit (if heeded then s.fireTime else none) = o) (ho : o ≠ .timedOut) :
    s.outcome limit heeded = o := by
  rw [outcome_eq, h]
  cases o with
  | timedOut => exact absurd rfl ho
  | _ => rfl

theorem race_of_outcome {s : Script} {limit : Option Float} {heeded : Bool} {o : Outcome}
    (h : s.outcome limit heeded = o) (ho : o ≠ .cancelled) :
    race s.ending limit (if heeded then s.fireTime else none) = o := by
  rw [outcome_eq] at h
  split at h
  · split at h
    · exact absurd h.symm ho
    · rwa [← h]
  · exact h

end Script
end Intake
