import Intake.Loop.Basic

/-!
# Loops in time

A message loop whose commands take a known time. Of all that runs, the
command that ends first ends next; messages that wait already are handled
before any time passes.

* `Timed.step` and `Timed.runUntil` run the loop.
* `Timed.drive` runs one chain of commands beside it.
-/

namespace Intake

/-- A command and the time at which it ends. -/
structure Running (κ : Type) where
  ends : Float
  command : κ

/-- A loop and the time. -/
structure Timed (α κ : Type) where
  now : Float := 0
  loop : Loop α (Running κ) := {}

/-- How long commands take and what they yield. -/
structure Performance (α κ : Type) where
  seconds : κ → Float
  result : κ → Except Fault (Option α)

namespace Timed

variable {α κ σ : Type}

/-- A command that starts now. -/
def timed (perform : Performance α κ) (now : Float) (c : κ) : Running κ :=
  ⟨now + perform.seconds c, c⟩

/-- Starts a command. -/
def dispatch (perform : Performance α κ) (t : Timed α κ) (c : Option κ) : Timed α κ :=
  { t with loop := t.loop.dispatch (c.map (timed perform t.now)) }

/-- Posts a message from outside. -/
def send (t : Timed α κ) (m : α) : Timed α κ := { t with loop := t.loop.send m }

/-- The place of the command that ends first; of two the one that started
first. -/
def earliest : List (Running κ) → Option (Nat × Running κ)
  | [] => none
  | r :: rest =>
    match earliest rest with
    | none => some (0, r)
    | some (i, first) => if first.ends < r.ends then some (i + 1, first) else some (0, r)

/-- A command that fails yields no message. -/
def messageOf (r : Except Fault (Option α)) : Option α :=
  match r with
  | .ok m => m
  | .error _ => none

/-- Lets the command that ends first end. -/
def endEarliest (perform : Performance α κ) (t : Timed α κ) : Option (Timed α κ) :=
  (earliest t.loop.running).map fun (i, r) =>
    { now := if t.now < r.ends then r.ends else t.now
      loop := t.loop.finish i (messageOf (perform.result r.command)) }

/-- Lets commands end until a message waits or nothing runs. The number
bounds the commands that end. -/
def awaitWithin (perform : Performance α κ) : Nat → Timed α κ → Timed α κ
  | 0, t => t
  | n + 1, t =>
    if t.loop.queue.isEmpty then
      match t.endEarliest perform with
      | some t => awaitWithin perform n t
      | none => t
    else t

/-- Lets commands end until a message waits or nothing runs. -/
def await (perform : Performance α κ) (t : Timed α κ) : Timed α κ :=
  awaitWithin perform t.loop.running.length t

/-- Handles the next message, for which it waits. There is none if nothing
that runs yields one. -/
def step (perform : Performance α κ) (update : Loop.Update σ α κ) (s : σ) (t : Timed α κ) :
    Option α × σ × Timed α κ :=
  let t := t.await perform
  let starting : Loop.Update σ α (Running κ) := fun s m =>
    let (s, c) := update s m
    (s, c.map (timed perform t.now))
  match Loop.step starting s t.loop with
  | some (m, s, l) => (some m, s, { t with loop := l })
  | none => (none, s, t)

/-- Handles messages until a state is reached or nothing is left to wait
for. The fuel bounds the number of messages. -/
def runUntil (perform : Performance α κ) (update : Loop.Update σ α κ) (enough : σ → Bool) :
    Nat → σ → Timed α κ → σ × Timed α κ
  | 0, s, t => (s, t)
  | fuel + 1, s, t =>
    if enough s then (s, t)
    else
      match step perform update s t with
      | (some _, s, t) => runUntil perform update enough fuel s t
      | (none, s, t) => (s, t)

/-- Lets every command end that ends before a time. -/
def endBefore (perform : Performance α κ) (limit : Float) : Nat → Timed α κ → Timed α κ
  | 0, t => t
  | fuel + 1, t =>
    match earliest t.loop.running with
    | some (_, r) =>
      if r.ends < limit then
        match t.endEarliest perform with
        | some t => endBefore perform limit fuel t
        | none => t
      else t
    | none => t

/-- Runs a chain of commands to its end and counts the messages handled.
What the loop has in the background goes on meanwhile. A command that fails
breaks the chain. -/
def drive (perform : Performance α κ) (update : Loop.Update σ α κ) :
    Nat → Nat → σ → Timed α κ → Option κ → Except Fault Nat × σ × Timed α κ
  | 0, handled, s, t, _ => (.ok handled, s, t)
  | _ + 1, handled, s, t, none => (.ok handled, s, t)
  | fuel + 1, handled, s, t, some c =>
    let ends := t.now + perform.seconds c
    let t := { endBefore perform ends t.loop.running.length t with now := ends }
    match perform.result c with
    | .error e => (.error e, s, t)
    | .ok none => (.ok handled, s, t)
    | .ok (some m) =>
      let (s, next) := update s m
      drive perform update fuel (handled + 1) s t next

/-- Drops every running command. -/
def shutdown (t : Timed α κ) : Timed α κ := { t with loop := t.loop.shutdown }

end Timed
end Intake
