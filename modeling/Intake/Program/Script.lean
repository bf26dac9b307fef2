import Intake.Fault
import Intake.Text.Utf8

/-!
# Courses of programs

A started program ends by itself or is stopped. What it does is a `Script`;
which of its end, its time limit and the cancellation comes first decides
whether it is stopped.

* `race` decides.
* `race_ended_iff` says exactly when a program that ends after some time
  ends by itself.
-/

namespace Intake

/-- When a program ends by itself. -/
inductive Ending where
  | atOnce
  | after (seconds : Float)
  | never

/-- When the cancellation fires in the course of a program. -/
inductive Firing where
  | never
  | atStart
  /-- Just as the program ends by itself. -/
  | atEnd
  /-- So long after the start. -/
  | after (seconds : Float)
  deriving DecidableEq, Repr

/-- What a program does once it is started. -/
structure Script where
  output : Text.Utf8.Bytes := []
  report : Text.Utf8.Bytes := []
  status : Int := 0
  ending : Ending := .atOnce
  /-- Starting it fails. -/
  startFault : Option Fault := none
  /-- It makes files: its last argument with each of these suffixes. -/
  suffixes : List String := []
  /-- It renders so many pages, or fewer if it was told so. -/
  pages : Option Nat := none
  /-- The clock moves when it starts. -/
  tick : Float := 0
  firing : Firing := .never
  /-- It is gone already when it is stopped. -/
  gone : Bool := false
  /-- How long its end takes once it is stopped. -/
  lingers : Float := 0

/-- What came first. -/
inductive Outcome where
  | ended
  | cancelled
  | timedOut
  /-- Nothing has come and nothing will by itself. -/
  | waiting
  deriving DecidableEq, Repr

/-- What stops a program that does not end: the earlier of cancellation
and limit. -/
def stopCause (limit fires : Option Float) : Outcome :=
  match fires, limit with
  | some f, some l => if f < l then .cancelled else .timedOut
  | some _, none => .cancelled
  | none, some _ => .timedOut
  | none, none => .waiting

/-- Which comes first: the end, the time limit or the cancellation. A
program that ends just as the cancellation fires has ended. -/
def race (ending : Ending) (limit fires : Option Float) : Outcome :=
  match ending with
  | .atOnce => .ended
  | .after t =>
    if limit.all (fun l => decide (t < l)) && fires.all (fun f => ! decide (f < t)) then .ended
    else stopCause limit fires
  | .never => stopCause limit fires

theorem stopCause_ne_ended (limit fires : Option Float) : stopCause limit fires ≠ .ended := by
  cases fires with
  | none =>
    cases limit with
    | none => exact nofun
    | some l => exact nofun
  | some f =>
    cases limit with
    | none => exact nofun
    | some l =>
      rw [stopCause]
      split
      · exact nofun
      · exact nofun

theorem race_ended_iff (t : Float) (limit fires : Option Float) :
    race (.after t) limit fires = .ended ↔
      (∀ l ∈ limit, t < l) ∧ (∀ f ∈ fires, ¬ f < t) := by
  rw [race, ite_eq_left_iff]
  simp only [stopCause_ne_ended, imp_false, Classical.not_not, Bool.and_eq_true, Option.all_eq_true,
    Bool.not_eq_true', decide_eq_true_eq, decide_eq_false_iff_not, Option.mem_def]

namespace Script

/-- The time from the start to the program's own end. -/
def endTime (s : Script) : Option Float :=
  match s.ending with
  | .atOnce => some 0
  | .after t => some t
  | .never => none

/-- The time from the start to the firing of the cancellation. -/
def fireTime (s : Script) : Option Float :=
  match s.firing with
  | .never => none
  | .atStart => some 0
  | .atEnd => s.endTime
  | .after t => some t

end Script
end Intake
