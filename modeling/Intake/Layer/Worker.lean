import Intake.Layer.ProgressStream

/-!
# Workers

A worker carries out a plan in the background. It puts out events and
stops whenever it waits for a program.

* `Worker.start` begins; `Worker.resume` goes on when the program has
  ended, and `Worker.halt` when the cancellation has fired.
* `Worker.due?` is the time at which a program ends by itself.
-/

namespace Intake

/-- A worker and the events it has put out. -/
structure Worker where
  /-- The session it works for. -/
  owner : Nat
  stage : Stage
  /-- When it began to wait. -/
  since : Float
  events : ProgressStream := {}

namespace Worker

/-- Takes what a plan put out. Behind the last event the stream ends. -/
def take (w : Worker) (now : Float) (events : List Progress) (stage : Stage) : Worker :=
  let stream := events.foldl ProgressStream.put w.events
  { w with
    stage := stage
    since := now
    events := match stage with
      | .over => stream.finish
      | .waits _ _ _ _ => stream }

/-- Carries a plan on. -/
def carryOn (w : Worker) (now : Float) (fired waits : Bool) (plan : Plan) : StateM Site Worker := do
  let (events, stage) ← plan.advance fired waits
  return w.take now events stage

/-- Begins a plan. -/
def start (owner : Nat) (now : Float) (fired waits : Bool) (plan : Plan) : StateM Site Worker :=
  carryOn { owner := owner, stage := .over, since := now } now fired waits plan

/-- The program a worker waits for has ended by itself. -/
def resume (w : Worker) (now : Float) (waits : Bool) : StateM Site Worker :=
  match w.stage with
  | .over => return w
  | .waits r script _ next => w.carryOn now false waits (next (script.result r))

/-- The cancellation has fired: the program is stopped and the work ends. -/
def halt (w : Worker) (now : Float) : StateM Site Worker :=
  match w.stage with
  | .over => return w
  | .waits _ _ call next => do
    modify (·.stopCall call)
    w.carryOn now true false (next (.error .cancelled))

/-- Stops the program a worker waits for; the worker does not go on. -/
def abandon (s : Site) (w : Worker) : Site :=
  match w.stage with
  | .over => s
  | .waits _ _ call _ => s.stopCall call

/-- Whether a worker waits for a program that ends at once. -/
def isReady (w : Worker) : Bool :=
  match w.stage with
  | .waits _ script _ _ =>
    match script.ending with
    | .atOnce => true
    | _ => false
  | .over => false

/-- The time at which the program a worker waits for ends by itself. -/
def due? (w : Worker) : Option Float :=
  match w.stage with
  | .over => none
  | .waits _ script _ _ => script.endTime.map (w.since + ·)

end Worker
end Intake
