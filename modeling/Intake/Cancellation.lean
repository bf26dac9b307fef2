import Intake.Fault

/-!
# Cancellations

A cancellation fires once and stays fired. Work can be guarded by it: the
guard waits until the work has ended or the cancellation has fired, and is
resumed some time later. If the work has ended by then, its outcome counts;
else it is asked to end, and the guard fails.

* `Cancellation.fire` and `Cancellation.check` are its two sides.
* `Guard` is work under a guard; `Guard.happen` takes what happens, in any
  order.
* `Work.course` tells work of known times event by event; `guarded` is what
  its guard gives, and `guarded_eq` says that what comes first decides.
* `Cancellation.guard` carries it out while time passes.
-/

namespace Intake

/-- A cancellation, the time, and the times at which it will fire. -/
structure Cancellation where
  fired : Bool := false
  now : Float := 0
  due : List Float := []

/-- Work that ends at some time or never. -/
structure Work (α : Type) where
  ends : Option Float
  outcome : Except Fault α

/-- What happens to guarded work. -/
inductive WorkEvent where
  | started
  | cancelled
  deriving DecidableEq, Repr

/-- What a guard gives, and what its work went through. -/
structure Guarded (α : Type) where
  outcome : Except Fault α
  events : List WorkEvent

/-! ## Guards -/

/-- What happens while work is guarded. -/
inductive Guard.Event (α : Type) where
  /-- The work takes a step. -/
  | steps
  | ends (outcome : Except Fault α)
  | fires
  /-- The guard is resumed. -/
  | resumes

/-- Work under a guard. -/
structure Guard (α : Type) where
  fired : Bool
  /-- The work has taken a step. -/
  begun : Bool := false
  /-- How often the work was asked to end. -/
  asked : Nat := 0
  /-- What the work has come to; it goes on while there is nothing. -/
  work : Option (Except Fault α) := none
  /-- What the guard has come to; it waits while there is nothing. -/
  left : Option (Except Fault α) := none

namespace Guard

variable {α : Type}

/-- Asks the work to end, and fails. -/
def refuse (g : Guard α) : Guard α :=
  { g with asked := g.asked + 1, left := some (.error .cancelled) }

/-- Begins to guard work that has not taken a step. Once the cancellation has
fired the guard does not wait. -/
def begin (fired : Bool) : Guard α :=
  if fired then refuse { fired := true } else { fired := false }

/-- Whether the work can take a step. Work that was asked to end before its
first step takes none. -/
def goesOn (g : Guard α) : Bool := g.work.isNone && (g.begun || g.asked == 0)

/-- One thing happens. A guard is resumed to no purpose while nothing has
come and once it has gone on. -/
def happen (g : Guard α) : Event α → Guard α
  | .steps => if g.goesOn then { g with begun := true } else g
  | .ends outcome => if g.goesOn then { g with begun := true, work := some outcome } else g
  | .fires => { g with fired := true }
  | .resumes =>
    if g.left.isSome then g
    else
      match g.work with
      | some outcome => { g with left := some outcome }
      | none => if g.fired then g.refuse else g

/-- Things happen, one after the other. -/
def run (g : Guard α) (events : List (Event α)) : Guard α := events.foldl happen g

/-- What the work went through. -/
def events (g : Guard α) : List WorkEvent :=
  if g.begun then .started :: if g.asked == 0 then [] else [.cancelled] else []

/-- What the guard gives, `none` while it waits. -/
def given (g : Guard α) : Option (Guarded α) := g.left.map fun outcome => ⟨outcome, g.events⟩

end Guard

/-! ## Known times -/

/-- Whether work ends no later than a cancellation fires. -/
def endsFirst (ends fires : Option Float) : Bool :=
  match ends, fires with
  | some e, some f => ! decide (f < e)
  | some _, none => true
  | none, _ => false

/-- What happens until a guard goes on that waits for work and for a
cancellation. Where both come at one time, it finds both. -/
def Work.course {α : Type} (work : Work α) (fires : Option Float) : List (Guard.Event α) :=
  if endsFirst work.ends fires then
    [.steps, .ends work.outcome] ++ (if endsFirst fires work.ends then [.fires] else [])
      ++ [.resumes]
  else if fires.isSome then [.steps, .fires, .resumes]
  else [.steps]

/-- What a guard gives, `none` if neither side ever comes. -/
def guarded {α : Type} (fired : Bool) (work : Work α) (fires : Option Float) :
    Option (Guarded α) :=
  ((Guard.begin fired).run (work.course fires)).given

theorem guarded_eq {α : Type} (fired : Bool) (work : Work α) (fires : Option Float) :
    guarded fired work fires =
      if fired then some ⟨.error .cancelled, []⟩
      else if endsFirst work.ends fires then some ⟨work.outcome, [.started]⟩
      else if fires.isSome then some ⟨.error .cancelled, [.started, .cancelled]⟩
      else none := by
  unfold guarded Work.course
  cases fired with
  | true =>
    cases endsFirst work.ends fires with
    | true => cases endsFirst fires work.ends <;> rfl
    | false => cases fires.isSome <;> rfl
  | false =>
    cases endsFirst work.ends fires with
    | true => cases endsFirst fires work.ends <;> rfl
    | false => cases fires.isSome <;> rfl

theorem guarded_of_fired {α : Type} (work : Work α) (fires : Option Float) :
    guarded true work fires = some ⟨.error .cancelled, []⟩ := by
  rw [guarded_eq, if_pos rfl]

namespace Cancellation

/-- Fires the cancellation. Firing it again changes nothing. -/
def fire (c : Cancellation) : Cancellation := { c with fired := true }

theorem fire_fire (c : Cancellation) : c.fire.fire = c.fire := rfl

/-- Fails once the cancellation has fired. -/
def check (c : Cancellation) : Except Fault Unit :=
  if c.fired then .error .cancelled else .ok ()

/-- The state in words. -/
def text (c : Cancellation) : String :=
  "CancelToken(cancelled=" ++ (if c.fired then "True" else "False") ++ ")"

/-- Makes the cancellation fire after some time. -/
def fireAfter (c : Cancellation) (seconds : Option Float) : Cancellation :=
  { c with due := c.due ++ (seconds.map (c.now + ·)).toList }

/-- The time at which the cancellation fires. -/
def firesAt (c : Cancellation) : Option Float :=
  match c.due with
  | [] => none
  | t :: rest => some (rest.foldl (fun a b => if b < a then b else a) t)

/-- Time passes until some moment. -/
def passTo (c : Cancellation) (moment : Float) : Cancellation :=
  { now := moment
    fired := c.fired || c.due.any fun t => ! decide (moment < t)
    due := c.due.filter fun t => decide (moment < t) }

/-- Waits until the cancellation has fired. -/
def wait (c : Cancellation) : Cancellation :=
  if c.fired then c else c.passTo (c.firesAt.getD c.now)

/-- Guards work that takes some time from now on. -/
def guard {α : Type} (c : Cancellation) (work : Work α) : Option (Guarded α × Cancellation) :=
  let work := { work with ends := work.ends.map (c.now + ·) }
  (guarded c.fired work c.firesAt).map fun g =>
    (g, if c.fired then c
      else if endsFirst work.ends c.firesAt then c.passTo (work.ends.getD c.now)
      else c.wait)

end Cancellation
end Intake
