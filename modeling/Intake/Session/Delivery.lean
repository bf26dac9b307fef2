import Intake.Chat.Basic
import Intake.Layer.Progress

/-!
# What reaches a session

A session works through commands. Each command is one piece of background
work and delivers at most one result; keys are delivered beside them.

* `Command` is a piece of work; `Command.owner` is the session it is for.
* `Delivery` is what arrives; `Delivery.owner?` is the session it is for.
* `Key` is a key by its meaning.
-/

namespace Intake

/-- A piece of background work for a session. Streams go by their numbers. -/
inductive Command where
  /-- Starts a worker that reads the pages and awaits its first event. -/
  | readPages (owner : Nat) (data : Text.Utf8.Bytes) (mime : String) (cap : Int)
  /-- Awaits the next event of a worker. -/
  | awaitProgress (owner : Nat) (stream : Option Nat)
  /-- Asks a model for a reply. -/
  | openReply (owner : Nat) (client : ChatClient) (messages : List Message)
  /-- Awaits the next chunk of a reply. -/
  | awaitChunk (owner : Nat) (stream : Option Nat)

/-- The session a command works for. -/
def Command.owner : Command → Nat
  | readPages owner _ _ _ => owner
  | awaitProgress owner _ => owner
  | openReply owner _ _ => owner
  | awaitChunk owner _ => owner

/-- The keys a session knows. -/
inductive Key where
  | down
  | up
  | enter
  | rerun
  | accept
  | escape
  | other
  deriving DecidableEq, Repr

/-- The key of a name. -/
def Key.ofName (name : String) : Key :=
  match name with
  | "j" => down
  | "down" => down
  | "k" => up
  | "up" => up
  | "enter" => enter
  | "r" => rerun
  | "a" => accept
  | "esc" => escape
  | _ => other

/-- What reaches a session. -/
inductive Delivery where
  /-- An event of a worker. -/
  | progress (owner : Nat) (p : Progress)
  /-- The stream of a reply is open. -/
  | replyOpened (owner : Nat) (stream : Nat)
  /-- A chunk of a reply, or its end. -/
  | chunk (owner : Nat) (c : Chunk)
  | key (k : Key)
  /-- Something no session knows. -/
  | other (owner : Nat)

/-- The session a delivery is for; a key is for whichever is open. -/
def Delivery.owner? : Delivery → Option Nat
  | progress owner _ => some owner
  | replyOpened owner _ => some owner
  | chunk owner _ => some owner
  | key _ => none
  | other owner => some owner

end Intake
