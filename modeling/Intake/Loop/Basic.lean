import Intake.Fault

/-!
# Message loops

A loop handles one message at a time. Handling may give a command, which
runs in the background and yields at most one message.

* `Loop.dispatch`, `Loop.send`, `Loop.finish` and `Loop.step` are the four
  moves.
* `queue_finish` and `queue_send` say that messages queue up in the order
  in which they arrive; `step_eq_some` says what one step does.
-/

namespace Intake

/-- Waiting messages and running commands, both oldest first. -/
structure Loop (α κ : Type) where
  queue : List α := []
  running : List κ := []

namespace Loop

variable {α κ σ : Type}

/-- Handling a message changes a state and may give a command. -/
abbrev Update (σ α κ : Type) := σ → α → σ × Option κ

/-- Starts a command. -/
def dispatch (l : Loop α κ) (c : Option κ) : Loop α κ :=
  { l with running := l.running ++ c.toList }

/-- Posts a message from outside. -/
def send (l : Loop α κ) (m : α) : Loop α κ := { l with queue := l.queue ++ [m] }

/-- A running command ends and posts its message, if it yields one. -/
def finish (l : Loop α κ) (i : Nat) (m : Option α) : Loop α κ :=
  { queue := l.queue ++ m.toList, running := l.running.eraseIdx i }

/-- Handles the next message and starts the command it gives. -/
def step (update : Update σ α κ) (s : σ) (l : Loop α κ) : Option (α × σ × Loop α κ) :=
  match l.queue with
  | [] => none
  | m :: rest =>
    let (s, c) := update s m
    some (m, s, { l with queue := rest }.dispatch c)

/-- Drops every running command. -/
def shutdown (l : Loop α κ) : Loop α κ := { l with running := [] }

/-- Whether nothing runs and no message waits. -/
def isIdle (l : Loop α κ) : Bool := l.running.isEmpty && l.queue.isEmpty

/-! ## Laws -/

@[simp] theorem queue_dispatch (l : Loop α κ) (c : Option κ) :
    (l.dispatch c).queue = l.queue := rfl

@[simp] theorem running_dispatch (l : Loop α κ) (c : Option κ) :
    (l.dispatch c).running = l.running ++ c.toList := rfl

@[simp] theorem queue_send (l : Loop α κ) (m : α) : (l.send m).queue = l.queue ++ [m] := rfl

@[simp] theorem running_send (l : Loop α κ) (m : α) : (l.send m).running = l.running := rfl

@[simp] theorem queue_finish (l : Loop α κ) (i : Nat) (m : Option α) :
    (l.finish i m).queue = l.queue ++ m.toList := rfl

@[simp] theorem running_finish (l : Loop α κ) (i : Nat) (m : Option α) :
    (l.finish i m).running = l.running.eraseIdx i := rfl

theorem step_eq_some {update : Update σ α κ} {s s' : σ} {l l' : Loop α κ} {m : α} :
    step update s l = some (m, s', l') ↔
      ∃ rest, l.queue = m :: rest ∧ s' = (update s m).1 ∧
        l' = { queue := rest, running := l.running ++ (update s m).2.toList } := by
  unfold step
  cases hq : l.queue with
  | nil => simp
  | cons x xs =>
    simp only [dispatch, Option.some.injEq, Prod.mk.injEq, List.cons.injEq]
    constructor
    · rintro ⟨rfl, rfl, rfl⟩
      exact ⟨xs, ⟨rfl, rfl⟩, rfl, rfl⟩
    · rintro ⟨rest, ⟨rfl, rfl⟩, rfl, rfl⟩
      exact ⟨rfl, rfl, rfl⟩

end Loop
end Intake
