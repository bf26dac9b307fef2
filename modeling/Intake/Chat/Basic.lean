import Intake.Chat.Stream
import Intake.Prompt

/-!
# Model calls

Asking a model, in one call or as a stream. Calls and answers are values:
what was asked is kept in order, and the answers are given in advance.

* `Response` is the answer to one call.
* `Desk` takes calls; `Desk.complete` and `Desk.openStream` are the two.
-/

namespace Intake

/-- What a model answers to one call. -/
inductive Answer where
  | refuses (e : Fault)
  /-- The whole reply, or nothing. -/
  | whole (text : Option String)
  | streamed (parts : List Part)

/-- The answer to one call and what goes with it. -/
structure Response where
  answer : Answer
  /-- The time the call takes. -/
  seconds : Float := 0
  closable : Bool := true
  closeFault : Option Fault := none

/-- The answer of a model that has nothing more to say. -/
def Response.none : Response := { answer := .refuses (.runtime "no scripted reply") }

/-- One call of a model. -/
inductive ChatRequest where
  /-- A whole reply is asked for, as a JSON object. -/
  | complete (model : String) (messages : List Message)
  /-- A stream is asked for. -/
  | stream (model : String) (messages : List Message)
  /-- A client without a model of its own is asked for a stream. -/
  | plain (messages : List Message)
  deriving DecidableEq, Repr

/-- A client of one model. -/
structure ChatClient where
  model : String
  /-- A plain client has its streams made in advance. -/
  isPlain : Bool := false
  deriving DecidableEq, Repr

/-- Where calls are answered. -/
structure Desk where
  replies : List Response := []
  streams : List ChatStream := []
  requests : List ChatRequest := []

namespace Desk

/-- The temperature of every call. -/
def temperature : Float := 0

/-- Takes the answer of the next call. -/
def takeReply (d : Desk) (r : ChatRequest) : Response × Desk :=
  (d.replies.headD .none, { d with replies := d.replies.tail, requests := d.requests ++ [r] })

/-- Asks for a whole reply; a reply without text is empty. -/
def complete (d : Desk) (model : String) (messages : List Message) :
    Except Fault String × Float × Desk :=
  let (reply, d) := d.takeReply (.complete model messages)
  (match reply.answer with
    | .refuses e => .error e
    | .whole text => .ok (text.getD "")
    | .streamed _ => .ok "", reply.seconds, d)

/-- Opens a stream. -/
def openStream (d : Desk) (client : ChatClient) (messages : List Message) :
    Except Fault ChatStream × Float × Desk :=
  if client.isPlain then
    let d' := { d with streams := d.streams.tail, requests := d.requests ++ [.plain messages] }
    match d.streams with
    | [] => (.error (.runtime "no scripted reply"), 0, d')
    | s :: _ => (.ok s, 0, d')
  else
    let (reply, d) := d.takeReply (.stream client.model messages)
    let stream (parts : List Part) : ChatStream :=
      { supply := .response parts, closable := reply.closable, closeFault := reply.closeFault }
    (match reply.answer with
      | .refuses e => .error e
      | .whole text => .ok (stream [.delta text])
      | .streamed parts => .ok (stream parts), reply.seconds, d)

end Desk
end Intake
