import Intake.Proofs.Layer.Agreement
import Intake.Proofs.Session.Turns
import Intake.Session.Workshop

/-!
# Carrying commands on

A command that is carried on goes on waiting, or it ends with one delivery
for its session and its step.  It ends without any only when its session
was cancelled or when what it asked reported a cancellation of its own, or
gave its caller up.

There are four groups.

* Candour.  `Workshop.Candid` says that no call and no stream reports a
  cancellation of its own, or gives its caller up.
* Tasks.  `Task.owner?` and `Task.layer?` are the session and the step of a
  task, and `Command.Becomes` is what a command may have become.
* Commands.  `becomes_proceed` is the result, with one lemma for each
  operation of the workshop.
* The workbench.  `bench_proceed` says that carrying a command on tells the
  open session at most the number of a stream.
-/

namespace Intake

/-! ## Candour -/

/-- No answer of a model, no stream and no worker reports a cancellation of
its own, and none gives its caller up. -/
structure Workshop.Candid (s : Workshop) : Prop where
  replies : ∀ r ∈ s.site.desk.replies, ∀ e, r.answer = .refuses e → e.isSilent = false
  streams : ∀ t ∈ s.streams, ∀ items, t.supply = .chunks items →
    ∀ e, .error e ∈ items → e.isSilent = false
  responses : ∀ t ∈ s.streams, ∀ parts, t.supply = .response parts →
    ∀ e, .fails e ∈ parts → e.isAbandoned = false
  workers : ∀ w ∈ s.workers, ∀ e, w.events.broken = some e → e.isSilent = false
  start : ∀ e, s.startFault = some e → e.isAbandoned = false

/-! ## Tasks -/

/-- The session that a task works for. -/
def Task.owner? : Task → Option Nat
  | .fresh c => some c.owner
  | .waiting c => some c.owner
  | .ended d => d.bind Delivery.owner?

/-- The step that a task works on. -/
def Task.layer? : Task → Option LayerKind
  | .fresh c => some c.layer
  | .waiting c => some c.layer
  | .ended d => d.bind Delivery.layer?

/-- A command waits, has ended with a delivery for its session and its
step, or has ended without one for a reason. -/
inductive Command.Becomes (c : Command) (reason : Prop) : Task → Prop where
  | waits {c' : Command} (howner : c'.owner = c.owner) (hlayer : c'.layer = c.layer) :
      Becomes c reason (.waiting c')
  | delivers {d : Delivery} (howner : d.owner? = some c.owner)
      (hlayer : d.layer? = some c.layer) : Becomes c reason (.ended (some d))
  | ends (h : reason) : Becomes c reason (.ended none)

/-- Commands for the same session and the same step become the same. -/
theorem Command.Becomes.congr {c c' : Command} {reason : Prop} {task : Task}
    (h : c.Becomes reason task) (howner : c.owner = c'.owner) (hlayer : c.layer = c'.layer) :
    c'.Becomes reason task := by
  cases h with
  | waits ho hl => exact .waits (ho.trans howner) (hl.trans hlayer)
  | delivers ho hl => exact .delivers (by rw [ho, howner]) (by rw [hl, hlayer])
  | ends h => exact .ends h

/-- The reason for which a command may end without a delivery. -/
def Workshop.Silences (s : Workshop) (owner : Nat) : Prop := s.hasFired owner = true ∨ ¬ s.Candid

namespace Workshop

variable {s : Workshop} {owner stream : Nat}

/-! ## Commands -/

theorem poll_awaitProgress (s : Workshop) (owner stream : Nat) :
    poll (.awaitProgress owner (some stream)) s =
      if s.hasFired owner then (.ended none, s)
      else (taskOf (.awaitProgress owner (some stream)) (readProgress owner stream s).1,
        (readProgress owner stream s).2) := by
  show (if s.hasFired owner then _ else _ : StateM Workshop Task) s = _
  split
  · rfl
  · rfl

theorem poll_awaitChunk (s : Workshop) (owner stream : Nat) :
    poll (.awaitChunk owner (some stream)) s =
      if s.hasFired owner then (.ended none, s)
      else (taskOf (.awaitChunk owner (some stream)) (readChunk owner stream s).1,
        (readChunk owner stream s).2) := by
  show (if s.hasFired owner then _ else _ : StateM Workshop Task) s = _
  split
  · rfl
  · rfl

/-- Only a worker whose stream reports a silent fault yields nothing. -/
theorem broken_of_awaited_eq_none {e : ProgressStream}
    (hwaiting : e.next.1 ≠ .waiting) (h : ProgressStream.awaited e.next.1 = none) :
    ∃ f, e.broken = some f ∧ f.isSilent = true := by
  cases hbroken : e.broken with
  | some f =>
    have hnext : e.next.1 = .failed f := by simp [ProgressStream.next, hbroken]
    rw [hnext, ProgressStream.awaited] at h
    refine ⟨f, rfl, ?_⟩
    split at h
    · assumption
    · cases h
  | none =>
    exfalso
    have hnext : (∃ p, e.next.1 = .event p) ∨ e.next.1 = .closed ∨ e.next.1 = .waiting := by
      unfold ProgressStream.next
      rw [hbroken]
      dsimp only
      split
      · exact Or.inr (Or.inl rfl)
      · split
        · exact Or.inl ⟨_, rfl⟩
        · split
          · exact Or.inr (Or.inl rfl)
          · exact Or.inr (Or.inr rfl)
    rcases hnext with ⟨p, hnext⟩ | hnext | hnext
    · rw [hnext] at h
      cases h
    · rw [hnext] at h
      cases h
    · exact hwaiting hnext

theorem becomes_readProgress {reason : Prop}
    (h : ∀ w, s.workers[stream]? = some w → ∀ e, w.events.broken = some e →
      e.isSilent = true → reason) :
    (Command.awaitProgress owner (some stream)).Becomes reason
      (taskOf (.awaitProgress owner (some stream)) (readProgress owner stream s).1) := by
  rw [readProgress]
  split
  · exact .waits rfl rfl
  · rename_i worker hworker
    dsimp only
    split
    · exact .waits rfl rfl
    · rename_i hwaiting
      cases hread : ProgressStream.awaited worker.events.next.1 with
      | some p => exact .delivers rfl rfl
      | none =>
        obtain ⟨e, hbroken, hsilent⟩ := broken_of_awaited_eq_none hwaiting hread
        exact .ends (h worker hworker e hbroken hsilent)

/-- A fault within a response arrives with its end, unless it gives the caller
up. -/
theorem mem_of_nextChunk_eq_failed {parts : List Part} {e : Fault}
    (h : (ChatStream.nextChunk parts).1 = .failed e) :
    .fails e ∈ parts ∧ e.isAbandoned = true := by
  induction parts with
  | nil => cases h
  | cons part rest ih =>
    have hrest : (ChatStream.nextChunk rest).1 = .failed e →
        .fails e ∈ part :: rest ∧ e.isAbandoned = true :=
      fun h => (ih h).imp_left (List.mem_cons_of_mem _)
    cases part with
    | delta text =>
      cases text with
      | none => exact hrest h
      | some text =>
        rw [ChatStream.nextChunk] at h
        split at h
        · exact hrest h
        · cases h
    | noChoice => exact hrest h
    | noText => exact hrest h
    | fails f =>
      rw [ChatStream.nextChunk] at h
      split at h
      · obtain rfl := StreamRead.failed.inj h
        exact ⟨List.mem_cons_self, ‹_›⟩
      · cases h
    | silence => cases h
    | pause seconds => exact hrest h

/-- A read fails for a stream made in advance, or when it gives the caller
up. -/
theorem mem_of_read_eq_failed {t : ChatStream} {e : Fault} (h : t.read.1 = .failed e) :
    (∃ items, t.supply = .chunks items ∧ .error e ∈ items) ∨
      ∃ parts, t.supply = .response parts ∧ .fails e ∈ parts ∧ e.isAbandoned = true := by
  rw [ChatStream.read] at h
  split at h
  · rename_i parts hsupply
    split at h
    · cases h
    · exact Or.inr ⟨parts, hsupply, mem_of_nextChunk_eq_failed h⟩
  · cases h
  · cases h
  · rename_i f rest hsupply
    obtain rfl : f = e := StreamRead.failed.inj h
    exact Or.inl ⟨_, hsupply, List.mem_cons_self⟩

/-- In a candid workshop no read ends a command without a word. -/
theorem Candid.isSilent_of_read (h : s.Candid) {t : ChatStream} (ht : t ∈ s.streams) {e : Fault}
    (hread : t.read.1 = .failed e) : e.isSilent = false := by
  rcases mem_of_read_eq_failed hread with ⟨items, hsupply, he⟩ | ⟨parts, hsupply, he, habandoned⟩
  · exact h.streams t ht items hsupply e he
  · have hfalse := h.responses t ht parts hsupply e he
    rw [habandoned] at hfalse
    cases hfalse

theorem becomes_readChunk (s : Workshop) (owner stream : Nat) :
    (Command.awaitChunk owner (some stream)).Becomes (s.Silences owner)
      (taskOf (.awaitChunk owner (some stream)) (readChunk owner stream s).1) := by
  rw [readChunk]
  split
  · exact .waits rfl rfl
  · rename_i chat hchat
    dsimp only
    cases hread : chat.read.1 with
    | waiting => exact .waits rfl rfl
    | chunk c => exact .delivers rfl rfl
    | exhausted => exact .delivers rfl rfl
    | failed e =>
      show Command.Becomes _ _ (.ended (if e.isSilent then none else _))
      split
      · rename_i hsilent
        refine .ends (Or.inr fun hcandid => ?_)
        have hfalse := hcandid.isSilent_of_read (List.mem_of_getElem? hchat) hread
        rw [hsilent] at hfalse
        cases hfalse
      · exact .delivers rfl rfl

/-- A command that is polled waits on for the same thing. -/
theorem becomes_poll (s : Workshop) (c : Command) :
    c.Becomes (s.Silences c.owner) (poll c s).1 := by
  cases c with
  | readPages owner data mime cap => exact .waits rfl rfl
  | openReply owner client messages => exact .waits rfl rfl
  | awaitProgress owner stream =>
    cases stream with
    | none => exact .delivers rfl rfl
    | some stream =>
      rw [poll_awaitProgress]
      split
      · exact .ends (Or.inl ‹_›)
      · refine becomes_readProgress fun w hw e hbroken hsilent => Or.inr fun hcandid => ?_
        have hfalse := hcandid.workers w (List.mem_of_getElem? hw) e hbroken
        rw [hsilent] at hfalse
        cases hfalse
  | awaitChunk owner stream =>
    cases stream with
    | none => exact .delivers rfl rfl
    | some stream =>
      rw [poll_awaitChunk]
      split
      · exact .ends (Or.inl ‹_›)
      · exact becomes_readChunk s owner stream

/-- Only an answer given in advance refuses a stream with a silent fault. -/
theorem mem_of_openStream_eq_error {d : Desk} {client : ChatClient} {messages : List Message}
    {e : Fault} (h : (d.openStream client messages).1 = .error e)
    (hsilent : e.isSilent = true) : ∃ r ∈ d.replies, r.answer = .refuses e := by
  rw [Desk.openStream] at h
  split at h
  · cases hstreams : d.streams with
    | nil =>
      rw [hstreams] at h
      obtain rfl := Except.error.inj h
      cases hsilent
    | cons t rest =>
      rw [hstreams] at h
      cases h
  · cases hreplies : d.replies with
    | nil =>
      simp only [Desk.takeReply, hreplies, List.headD_nil, Response.none] at h
      obtain rfl := Except.error.inj h
      cases hsilent
    | cons r rest =>
      simp only [Desk.takeReply, hreplies, List.headD_cons] at h
      refine ⟨r, List.mem_cons_self, ?_⟩
      cases hanswer : r.answer with
      | refuses f =>
        rw [hanswer] at h
        rw [Except.error.inj h]
      | whole text =>
        rw [hanswer] at h
        cases h
      | streamed parts =>
        rw [hanswer] at h
        cases h

theorem becomes_openReply (s : Workshop) (owner : Nat) (client : ChatClient)
    (messages : List Message) :
    (Command.openReply owner client messages).Becomes (s.Silences owner)
      (.ended (openReply owner client messages s).1) := by
  rw [openReply]
  rcases hopen : s.site.desk.openStream client messages with ⟨answer, seconds, desk⟩
  cases answer with
  | ok stream => exact .delivers rfl rfl
  | error e =>
    have hanswer : (s.site.desk.openStream client messages).1 = .error e := by rw [hopen]
    show Command.Becomes _ _ (.ended (if e.isSilent then none else _))
    split
    · rename_i hsilent
      obtain ⟨r, hr, hrefuses⟩ := mem_of_openStream_eq_error hanswer hsilent
      refine .ends (Or.inr fun hcandid => ?_)
      have hfalse := hcandid.replies r hr e hrefuses
      rw [hsilent] at hfalse
      cases hfalse
    · exact .delivers rfl rfl

/-- A worker that was just started can be listened to. -/
theorem broken_start (owner : Nat) (now : Float) (fired waits : Bool) (plan : Plan) (site : Site) :
    (Worker.start owner now fired waits plan site).1.events.broken = none :=
  (Worker.frames_take _ now _ _).1

theorem begin_readPages (s : Workshop) (owner : Nat) (data : Text.Utf8.Bytes) (mime : String)
    (cap : Int) :
    begin (.readPages owner data mime cap) s =
      match s.startFault with
      | some e =>
        (.ended (if e.isAbandoned then none else some (.progress owner (.failed e))), s)
      | none => poll (.awaitProgress owner (some s.workers.length))
          (startWorker owner (Plan.forDocument s.site.scratch data mime cap) s).2 := by
  show (match s.startFault with
    | some e => pure (.ended (if e.isAbandoned then none else some (.progress owner (.failed e))))
    | none => do
      let stream ← startWorker owner (Plan.forDocument s.site.scratch data mime cap)
      poll (.awaitProgress owner (some stream)) : StateM Workshop Task) s = _
  cases s.startFault with
  | none => rfl
  | some e => rfl

/-- A command that begins waits, or it ends. -/
theorem becomes_begin (s : Workshop) (c : Command) :
    c.Becomes (s.Silences c.owner) (begin c s).1 := by
  cases c with
  | readPages owner data mime cap =>
    rw [begin_readPages]
    split
    · rename_i e hstart
      dsimp only
      split
      · rename_i habandoned
        refine .ends (Or.inr fun hcandid => ?_)
        have hfalse := hcandid.start e hstart
        rw [habandoned] at hfalse
        cases hfalse
      · exact .delivers rfl rfl
    · rw [poll_awaitProgress]
      split
      · exact .ends (Or.inl ‹_›)
      · refine (becomes_readProgress fun w hw e hbroken _ => ?_).congr rfl rfl
        have hnew : (startWorker owner (Plan.forDocument s.site.scratch data mime cap) s).2.workers
            = s.workers ++ [(Worker.start owner s.now (s.hasFired owner) s.stepwise
                (Plan.forDocument s.site.scratch data mime cap) s.site).1] := rfl
        rw [hnew, List.getElem?_concat_length, Option.some.injEq] at hw
        subst hw
        rw [broken_start] at hbroken
        cases hbroken
  | openReply owner client messages =>
    show Command.Becomes _ _ ((if s.hasFired owner then _ else _ : StateM Workshop Task) s).1
    split
    · exact .ends (Or.inl ‹_›)
    · exact becomes_openReply s owner client messages
  | awaitProgress owner stream => exact becomes_poll s _
  | awaitChunk owner stream => exact becomes_poll s _

/-- A task that is carried on works for the same session on the same step
until it ends. -/
theorem becomes_proceed (s : Workshop) {task : Task} {c : Command}
    (htask : task = .fresh c ∨ task = .waiting c) :
    c.Becomes (s.Silences c.owner) (proceed task s).1 := by
  rcases htask with rfl | rfl
  · exact becomes_begin s c
  · exact becomes_poll s c

/-! ## The workbench -/

theorem bench_readProgress (s : Workshop) (owner stream : Nat) :
    (readProgress owner stream s).2.bench = s.bench := by
  rw [readProgress]
  split
  · rfl
  · dsimp only
    split
    · rfl
    · rfl

theorem bench_readChunk (s : Workshop) (owner stream : Nat) :
    (readChunk owner stream s).2.bench = s.bench := by
  rw [readChunk]
  split
  · rfl
  · rename_i chat hchat
    dsimp only
    cases chat.read.1 with
    | waiting => rfl
    | _ => rfl

theorem bench_poll (s : Workshop) (c : Command) : (poll c s).2.bench = s.bench := by
  cases c with
  | readPages owner data mime cap => rfl
  | openReply owner client messages => rfl
  | awaitProgress owner stream =>
    cases stream with
    | none => rfl
    | some stream =>
      rw [poll_awaitProgress]
      split
      · rfl
      · exact bench_readProgress s owner stream
  | awaitChunk owner stream =>
    cases stream with
    | none => rfl
    | some stream =>
      rw [poll_awaitChunk]
      split
      · rfl
      · exact bench_readChunk s owner stream

theorem bench_openReply (s : Workshop) (owner : Nat) (client : ChatClient)
    (messages : List Message) : (openReply owner client messages s).2.bench = s.bench := by
  rw [openReply]
  rcases s.site.desk.openStream client messages with ⟨answer, seconds, desk⟩
  cases answer with
  | ok stream => rfl
  | error e => rfl

/-- The number of a stream as the open session is told of it. -/
def informed (owner stream : Nat) (s : Session) : Session :=
  if s.number = owner then { s with progress := some stream } else s

/-- Carrying a task on tells the open session at most the number of a
stream. -/
theorem bench_proceed (s : Workshop) (task : Task) :
    (proceed task s).2.bench = s.bench ∨
      ∃ owner stream, (proceed task s).2.bench = s.bench.onSession (informed owner stream) := by
  cases task with
  | ended d => exact Or.inl rfl
  | waiting c => exact Or.inl (bench_poll s c)
  | fresh c =>
    cases c with
    | readPages owner data mime cap =>
      show (begin _ s).2.bench = _ ∨ ∃ owner stream, (begin _ s).2.bench = _
      rw [begin_readPages]
      split
      · exact Or.inl rfl
      · refine Or.inr ⟨owner, s.workers.length, ?_⟩
        exact bench_poll _ _
    | openReply owner client messages =>
      refine Or.inl ?_
      show ((if s.hasFired owner then _ else _ : StateM Workshop Task) s).2.bench = _
      split
      · rfl
      · exact bench_openReply s owner client messages
    | awaitProgress owner stream => exact Or.inl (bench_poll s _)
    | awaitChunk owner stream => exact Or.inl (bench_poll s _)

end Workshop
end Intake
