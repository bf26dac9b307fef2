import Intake.Fault

/-!
# Streamed replies

A reply that arrives in parts. Parts without text are passed over; the
stream ends with exactly one done chunk, and after that, or after it was
closed, it stays ended. A reader that is given up has its read fail, and the
stream goes on with what is left.

* `ChatStream.read` reads the next chunk.
* `ChatStream.close` closes the response, and `ChatStream.closeReport` is
  what comes of that.
* `read_of_finished` says that an ended stream yields nothing.
-/

namespace Intake

/-- One part of a streamed response. -/
inductive Part where
  /-- A piece of text, or a piece that holds none. -/
  | delta (text : Option String)
  /-- A part without any choice. -/
  | noChoice
  /-- A choice whose delta has no text at all. -/
  | noText
  /-- Reading the response fails. -/
  | fails (e : Fault)
  /-- Nothing more ever arrives, not even the end. -/
  | silence
  /-- The clock moves before the next part. -/
  | pause (seconds : Float)

/-- One increment of a reply. A transport fault arrives with the end. -/
structure Chunk where
  text : String := ""
  done : Bool := false
  fault : Option Fault := none

/-- The end of a reply. -/
def Chunk.last : Chunk := { done := true }

/-- A reply that broke off. -/
def Chunk.broken (e : Fault) : Chunk := { done := true, fault := some e }

/-- What one read gives. -/
inductive StreamRead where
  | chunk (c : Chunk)
  /-- The stream has ended before. -/
  | exhausted
  /-- The read itself failed. -/
  | failed (e : Fault)
  /-- Nothing has arrived yet. -/
  | waiting

/-- What a stream still yields: the parts of a response, or chunks and
faults made in advance. -/
inductive Supply where
  | response (parts : List Part)
  | chunks (items : List (Except Fault Chunk))

/-- A stream of chunks. -/
structure ChatStream where
  supply : Supply
  /-- The end was delivered, or the stream was closed. -/
  finished : Bool := false
  /-- Whether the response can be closed. -/
  closable : Bool := true
  /-- Closing reports this fault. -/
  closeFault : Option Fault := none
  /-- How often the response was closed. -/
  closings : Nat := 0

namespace ChatStream

/-- Whether the response was closed. -/
def closed (s : ChatStream) : Bool := decide (0 < s.closings)

/-- The next chunk of a response: what the read gives, the seconds that
passed, and the parts that are left. -/
def nextChunk : List Part → StreamRead × Float × List Part
  | [] => (.chunk .last, 0, [])
  | .delta (some text) :: rest =>
    if text.isEmpty then nextChunk rest else (.chunk { text := text }, 0, rest)
  | .fails e :: rest =>
    if e.isAbandoned then (.failed e, 0, rest) else (.chunk (.broken e), 0, rest)
  | .silence :: rest => (.waiting, 0, .silence :: rest)
  | .pause seconds :: rest =>
    let (read, passed, left) := nextChunk rest
    (read, seconds + passed, left)
  | .delta none :: rest => nextChunk rest
  | .noChoice :: rest => nextChunk rest
  | .noText :: rest => nextChunk rest

/-- Whether a read delivers the end. -/
def isEnd : StreamRead → Bool
  | .chunk c => c.done
  | _ => false

/-- Reads the next chunk; the number is the seconds that passed. -/
def read (s : ChatStream) : StreamRead × Float × ChatStream :=
  match s.supply with
  | .response parts =>
    if s.finished then (.exhausted, 0, s)
    else
      let (r, passed, left) := nextChunk parts
      (r, passed, { s with supply := .response left, finished := isEnd r })
  | .chunks [] => (.exhausted, 0, s)
  | .chunks (.ok c :: rest) => (.chunk c, 0, { s with supply := .chunks rest })
  | .chunks (.error e :: rest) => (.failed e, 0, { s with supply := .chunks rest })

/-- Stops the stream and closes its response if that can be closed. -/
def close (s : ChatStream) : ChatStream :=
  { s with finished := true, closings := if s.closable then s.closings + 1 else s.closings }

/-- What closing reports. The stream is stopped all the same. -/
def closeReport (s : ChatStream) : Except Fault Unit :=
  match s.closable, s.closeFault with
  | true, some e => .error e
  | _, _ => .ok ()

theorem read_of_finished {s : ChatStream} {parts : List Part} (hs : s.supply = .response parts)
    (h : s.finished = true) : s.read = (.exhausted, 0, s) := by
  simp [read, hs, h]

theorem finished_close (s : ChatStream) : s.close.finished = true := rfl

end ChatStream
end Intake
