import Intake.Proofs.Session.Asking
import Intake.Proofs.Session.Streaming

/-!
# Replies heard afresh

What a session holds of its model is settled by what it holds of its document
and by the chunks of the latest reply.  Nothing is left of a reply before it.

There are four groups.

* Parts.  `Session.ground` is a session without all that its model has part
  in, and `Session.plain` is one without its streams, its view and times.
* Replies.  `Session.withChunk` is what a chunk brings, and `Session.afresh` is
  a session whose model has just been asked.
* Changes.  `Session.Reflects` says that a session is the one just asked, with
  the chunks of the latest reply; `Change.reflects` says that a change
  preserves it.
* Moves.  `reflects_move` says that a move preserves it, and
  `reflects_of_chronicle` lifts it to runs.
-/

namespace Intake

/-! ## Parts -/

namespace Session

/-- A session without its number, its streams, its view and times. -/
def plain (s : Session) : Session :=
  { s.erased with progress := none, reply := none, cursor := 0, chosen := [] }

/-- A session without what its model has brought, and without its view. -/
def ground (s : Session) : Session :=
  { s.plain with llm := {}, received := [], hints := none, hasError := false, done := false }

variable {s s' : Session} {e : Entry}

theorem plain_of_erased (h : s'.erased = s.erased) : s'.plain = s.plain :=
  congrArg (fun t : Session =>
    { t with progress := none, reply := none, cursor := 0, chosen := [] }) h

theorem ground_congr (h : s'.plain = s.plain) : s'.ground = s.ground :=
  congrArg (fun t : Session =>
    { t with llm := {}, received := [], hints := none, hasError := false, done := false }) h

/-- What is not of the ground is what a model has part in. -/
theorem plain_congr (h : s'.ground = s.ground) (hllm : s'.llm.timeless = s.llm.timeless)
    (hreceived : s'.received = s.received) (hhints : s'.hints = s.hints)
    (herror : s'.hasError = s.hasError) (hdone : s'.done = s.done) : s'.plain = s.plain := by
  show { s'.ground with
      llm := s'.llm.timeless, received := s'.received, hints := s'.hints,
      hasError := s'.hasError, done := s'.done } =
    { s.ground with
      llm := s.llm.timeless, received := s.received, hints := s.hints,
      hasError := s.hasError, done := s.done }
  rw [h, hllm, hreceived, hhints, herror, hdone]

theorem source_congr (h : s'.ground = s.ground) : s'.source = s.source :=
  (congrArg Session.source h :)

theorem applies_congr (h : s'.ground = s.ground) : s'.applies = s.applies :=
  (congrArg Session.applies h :)

theorem canAccept_congr (h : s'.plain = s.plain) : s'.canAccept = s.canAccept := by
  have hplain : ∀ t : Session, t.plain.canAccept = t.erased.canAccept := fun _ => rfl
  rw [← canAccept_erased s', ← canAccept_erased s, ← hplain, ← hplain, h]

/-! ## Replies -/

/-- A session with a further chunk of its reply, without times. -/
def withChunk (s : Session) (c : Chunk) : Session :=
  match c.fault with
  | some e => s.replyFailed 0 e
  | none =>
    if c.done then Workshop.concluded ((s.replyGrown c.text).replyEnded 0)
    else s.replyGrown c.text

/-- A session whose model has just been asked. -/
def afresh (s : Session) (model : String) : Session := s.modelReset.modelStarted 0 model

/-- What does not depend on streams, the view and times depends on the plain
session. -/
theorem plain_apply {f : Session → Session} (hf : ∀ s : Session, (f s.plain).plain = (f s).plain)
    (h : s'.plain = s.plain) : (f s').plain = (f s).plain := by
  rw [← hf s', ← hf s, h]

theorem plain_replyGrown (s : Session) (piece : String) :
    (s.plain.replyGrown piece).plain = (s.replyGrown piece).plain := by
  rw [replyGrown, replyGrown]
  split
  · rfl
  · rfl

theorem plain_concluded (s : Session) :
    (Workshop.concluded s.plain).plain = (Workshop.concluded s).plain := by
  have htext : s.plain.replyText = s.replyText := rfl
  rw [Workshop.concluded, Workshop.concluded, htext]
  cases Reply.read s.replyText with
  | ok hints => rfl
  | error failure =>
    cases failure with
    | malformed m => rfl
    | overflow => rfl

/-- The time at which a reply has ended plays no part. -/
theorem plain_replyEnded (now : Float) (h : s'.plain = s.plain) :
    (s'.replyEnded now).plain = (s.replyEnded 0).plain := by
  have htimes : (s'.replyEnded now).plain = (s'.replyEnded 0).plain :=
    plain_of_erased (by rw [← erased_replyEnded, ← erased_replyEnded s' 0])
  rw [htimes]
  exact plain_apply (f := fun s => s.replyEnded 0) (fun _ => rfl) h

theorem plain_withChunk (c : Chunk) (h : s'.plain = s.plain) :
    (s'.withChunk c).plain = (s.withChunk c).plain := by
  rw [withChunk, withChunk]
  cases c.fault with
  | some e => exact plain_apply (f := fun s => s.replyFailed 0 e) (fun _ => rfl) h
  | none =>
    have hgrown : (s'.replyGrown c.text).plain = (s.replyGrown c.text).plain :=
      plain_apply (f := fun s => s.replyGrown c.text) (plain_replyGrown · c.text) h
    dsimp only
    split
    · exact plain_apply plain_concluded (plain_replyEnded 0 hgrown)
    · exact hgrown

theorem plain_foldl_withChunk (cs : List Chunk) (h : s'.plain = s.plain) :
    (cs.foldl withChunk s').plain = (cs.foldl withChunk s).plain := by
  induction cs generalizing s s' with
  | nil => exact h
  | cons c cs ih => exact ih (plain_withChunk c h)

/-- A question finds nothing but the ground of a session. -/
theorem plain_afresh (model : String) (h : s'.ground = s.ground) :
    (s'.afresh model).plain = (s.afresh model).plain := by
  have hground : ∀ t : Session, (t.ground.afresh model).plain = (t.afresh model).plain := by
    intro t
    have hactive : t.ground.active = t.active := rfl
    have hstatus : (fun k => k != .llm && decide ((t.ground.info k).status = .failed)) =
        fun k => k != .llm && decide ((t.info k).status = .failed) := by
      funext k
      cases k with
      | _ => rfl
    refine plain_congr rfl rfl rfl rfl ?_ rfl
    show t.ground.active.any _ = t.active.any _
    rw [hactive, hstatus]
  rw [← hground s', ← hground s, h]

end Session

/-! ## Changes -/

theorem StepStatus.GetsOn.ne_pending {t t' : StepStatus} (h : t.GetsOn t') : t' ≠ .pending := by
  cases h with
  | _ => exact StepStatus.noConfusion

namespace Session

variable {s s' : Session} {e : Entry}

/-- A session is the one whose model was just asked, with the chunks of its
latest reply. -/
structure Reflects (s : Session) (model : String) (reply : Option (List Chunk)) : Prop where
  unasked : reply = none → s.llm.timeless = {} ∧ s.received = []
  asked : ∀ cs ∈ reply, s.llm.status ≠ .pending ∧
    s.plain = (cs.foldl withChunk (s.afresh model)).plain

variable {model : String} {reply : Option (List Chunk)}

theorem Reflects.congr (h : s.Reflects model reply) (hplain : s'.plain = s.plain) :
    s'.Reflects model reply := by
  have hllm : s'.llm.timeless = s.llm.timeless := (congrArg Session.llm hplain :)
  have hreceived : s'.received = s.received := (congrArg Session.received hplain :)
  have hstatus : s'.llm.status = s.llm.status := (congrArg StepInfo.status hllm :)
  refine ⟨fun hnone => ?_, fun cs hcs => ?_⟩
  · rw [hllm, hreceived]
    exact h.unasked hnone
  · obtain ⟨hasked, hheard⟩ := h.asked cs hcs
    rw [hstatus]
    refine ⟨hasked, hplain.trans (hheard.trans ?_)⟩
    exact plain_foldl_withChunk cs (plain_afresh model (ground_congr hplain)).symm

/-- Two sessions with the same ground and the same reply hold the same. -/
theorem Reflects.plain_eq {cs : List Chunk} (h : s.Reflects model (some cs))
    (h' : s'.Reflects model (some cs)) (hground : s'.ground = s.ground) : s'.plain = s.plain := by
  rw [(h.asked cs rfl).2, (h'.asked cs rfl).2]
  exact plain_foldl_withChunk cs (plain_afresh model hground)

/-- The chunk that is heard is the last of those that the session reflects. -/
theorem Reflects.heard {c : Chunk} (h : s.Reflects model reply) (hasked : reply ≠ none)
    (hplain : s'.plain = (s.withChunk c).plain) (hground : s'.ground = s.ground)
    (hstatus : s'.llm.status ≠ .pending) : s'.Reflects model (reply.map (· ++ [c])) := by
  obtain ⟨cs, rfl⟩ := Option.ne_none_iff_exists'.1 hasked
  refine ⟨fun hnone => (by cases hnone), ?_⟩
  rintro _ ⟨⟩
  refine ⟨hstatus, hplain.trans ?_⟩
  rw [List.foldl_append]
  refine plain_withChunk c ?_
  rw [(h.asked cs rfl).2]
  exact plain_foldl_withChunk cs (plain_afresh model hground.symm)

theorem eq_concluded (h : s.Concludes s') : s' = Workshop.concluded s := by
  rw [Workshop.concluded]
  cases h with
  | reads hread => rw [hread]
  | refuses hread => rw [hread]
  | overflows hread => rw [hread]

theorem ground_replyGrown (s : Session) (piece : String) :
    (s.replyGrown piece).ground = s.ground := by
  rw [replyGrown]
  split
  · rfl
  · rfl

theorem Concludes.ground (h : s.Concludes s') : s'.ground = s.ground := by
  cases h with
  | reads => rfl
  | refuses => rfl
  | overflows => rfl

/-- Only the reading of pages changes the ground of a session. -/
theorem Change.ground (h : s.Change e s') (hocr : s.ocr.status ≠ .running) :
    s'.ground = s.ground := by
  cases h with
  | views => rfl
  | pagesMoved hstands => exact absurd hstands.ocr.2 hocr
  | pagesFailed now hstands => exact absurd hstands.ocr.2 hocr
  | pagesRead now hstands => exact absurd hstands.ocr.2 hocr
  | replyOpened => rfl
  | @replyGrown c => exact ground_replyGrown s c.text
  | replyFailed => rfl
  | @replyEnded c _ now _ _ _ _ _ hread => exact hread.ground.trans (ground_replyGrown s c.text)
  | reruns => rfl

theorem Change.ne_pending (h : s.Change e s') (hs : s.llm.status ≠ .pending) :
    s'.llm.status ≠ .pending := by
  rcases h.llm_cases with hsame | hgets | ⟨-, -, hruns⟩
  · rw [hsame]
    exact hs
  · exact hgets.ne_pending
  · rw [hruns]
    exact StepStatus.noConfusion

theorem Course.ground {h : List Entry} (hcourse : s.Course h s')
    (hocr : s.ocr.status ≠ .running) : s'.ground = s.ground := by
  induction hcourse with
  | nil => rfl
  | snoc hcourse hchange ih =>
    refine (hchange.ground ?_).trans ih
    rw [hcourse.ocr_of_ne_running hocr]
    exact hocr

theorem Course.ne_pending {h : List Entry} (hcourse : s.Course h s')
    (hs : s.llm.status ≠ .pending) : s'.llm.status ≠ .pending := by
  induction hcourse with
  | nil => exact hs
  | snoc _ hchange ih => exact hchange.ne_pending ih

theorem llm_ne_pending (h : s.Stands (some .llm)) : s.llm.status ≠ .pending := by
  rw [show s.llm.status = .running from h.llm.2]
  exact StepStatus.noConfusion

/-- While the model's step waits, nothing but the pages is heard. -/
theorem Reflects.waiting (h : s.Reflects model reply) (hpending : s.llm.status = .pending)
    (hllm : s'.llm = s.llm) (hreceived : s'.received = s.received) {c? : Option Chunk} :
    s'.Reflects model (reply.map (· ++ c?.toList)) := by
  cases reply with
  | none =>
    refine ⟨fun _ => ?_, fun cs hcs => (by cases hcs)⟩
    rw [hllm, hreceived]
    exact h.unasked rfl
  | some cs => exact absurd hpending (h.asked cs rfl).1

/-- Once the pages are read or have failed, the session goes on and still
nothing is heard of the model. -/
theorem Reflects.goesOn (h : s.Reflects model reply) {s₁ : Session}
    (hnumber : s₁.number = s.number) (hllm : s₁.llm = s.llm) (hreceived : s₁.received = s.received)
    (hpending : s.llm.status = .pending) (hasks : ¬ e.asks s.number)
    (hnext : s₁.GoesOn e.command s') {c? : Option Chunk} :
    s'.Reflects model (reply.map (· ++ c?.toList)) := by
  generalize hcommand : e.command = command at hnext
  cases hnext with
  | asks now model client messages =>
    refine absurd ?_ hasks
    rw [Entry.asks, hcommand, hnumber]
    exact beq_self_eq_true s.number
  | finishes => exact h.waiting hpending (by exact hllm) (by exact hreceived)

/-- A chunk of the reply is heard, and is the last one so far. -/
theorem Change.reflects_of_chunk (h : s.Change e s') (hs : s.Reflects model reply) {c : Chunk}
    (hstands : s.Stands (some .llm)) (hwhat : e.what = .handles (.chunk s.number c))
    (hplain : s'.plain = (s.withChunk c).plain) :
    s'.Reflects model (reply.map (· ++ (e.chunk? s.number).toList)) := by
  have hchunk : e.chunk? s.number = some c := by
    rw [Entry.chunk?_of_handles hwhat]
    exact if_pos rfl
  have hpending := llm_ne_pending hstands
  have hasked : reply ≠ none := by
    intro hnone
    have hllm := (hs.unasked hnone).1
    exact hpending (congrArg StepInfo.status hllm :)
  rw [hchunk]
  exact hs.heard hasked hplain (h.ground (Office.ocr_ne_running hstands)) (h.ne_pending hpending)

/-- A change with which the model is not asked adds what is heard of the
reply, and nothing else. -/
theorem Change.reflects (h : s.Change e s') (hasks : ¬ e.asks s.number)
    (hs : s.Reflects model reply) :
    s'.Reflects model (reply.map (· ++ (e.chunk? s.number).toList)) := by
  have hsilent : s'.plain = s.plain → e.chunk? s.number = none →
      s'.Reflects model (reply.map (· ++ (e.chunk? s.number).toList)) := by
    intro hplain hnone
    rw [hnone]
    simpa using hs.congr hplain
  have hchunk := fun {c : Chunk} => h.reflects_of_chunk hs (c := c)
  cases h with
  | views progress cursor chosen hunheard hcommand =>
    refine hsilent rfl (Entry.quiet_of_owner_ne hunheard fun c hc => ?_).chunk
    cases hcommand.symm.trans hc
  | pagesMoved hstands => exact hs.waiting hstands.llm (by rfl) (by rfl)
  | pagesFailed now hstands _ _ hnext =>
    exact hs.goesOn (by rfl) (by rfl) (by rfl) hstands.llm hasks hnext
  | pagesRead now hstands _ _ _ hnext =>
    exact hs.goesOn (by rfl) (by rfl) (by rfl) hstands.llm hasks hnext
  | replyOpened hstands hwhat => exact hsilent rfl (Entry.chunk?_of_handles hwhat)
  | @replyGrown c hstands hwhat hlast =>
    refine hchunk hstands hwhat ?_
    obtain ⟨hdone, hfault⟩ := not_or.1 hlast
    rw [withChunk, not_not.1 hfault]
    exact congrArg plain (if_neg hdone).symm
  | @replyFailed c f now hstands hwhat hfault =>
    refine hchunk hstands hwhat ?_
    rw [withChunk, hfault]
    exact plain_of_erased (by rw [← erased_replyFailed, ← erased_replyFailed s 0])
  | @replyEnded c _ now hstands hwhat hfault hdone _ hread =>
    refine hchunk hstands hwhat ?_
    rw [withChunk, hfault, eq_concluded hread]
    dsimp only
    rw [if_pos hdone]
    exact plain_apply plain_concluded (plain_replyEnded now rfl)
  | reruns now model' client messages _ _ _ hcommand =>
    refine absurd ?_ hasks
    rw [Entry.asks, hcommand]
    exact beq_self_eq_true s.number

/-- A session whose model has just been asked, and of which nothing was heard
before. -/
theorem reflects_modelStarted (hllm : s.llm.timeless = {}) (hreceived : s.received = [])
    {now : Float} (hstands : (s.modelStarted now model).Stands (some .llm)) :
    (s.modelStarted now model).Reflects model (some []) := by
  have hstanding : (s.modelStarted now model).Standing .lt .eq false := hstands
  have hrunning : (s.modelStarted now model).llm.status = .running := hstanding.llm.2
  refine ⟨fun hnone => (by cases hnone), ?_⟩
  rintro _ ⟨⟩
  rw [hrunning]
  refine ⟨StepStatus.noConfusion, ?_⟩
  refine plain_congr rfl ?_ hreceived ?_ ?_ hstanding.done
  · show (s.llm.timeless.start 0 model).timeless = _
    rw [hllm]
    rfl
  · have hhints := hstanding.hints
    rw [hrunning] at hhints
    exact Option.not_isSome_iff_eq_none.1 fun hsome => StepStatus.noConfusion (hhints.1 hsome)
  · -- At the model's step a fault can only be one of a step before it.
    have herror := hstanding.hasError
    rw [hrunning] at herror
    refine Bool.eq_iff_iff.2 (herror.trans ?_)
    refine (or_iff_left StepStatus.noConfusion).trans ?_
    exact (hasError_modelReset hstanding).symm

end Session

/-! ## Moves -/

namespace Workbench

/-- Nothing was heard of the model of a session that has just been opened,
unless it was asked. -/
theorem unheard_open {w : Workbench} {s : Session} {now : Float} {document : Int}
    {filename : String} {data : Text.Utf8.Bytes} {mime text : String}
    (hs : (w.open now document filename data mime text).bench.session = some s) :
    s.Unheard ∨ ∃ client messages, (w.open now document filename data mime text).command? =
      some (.openReply s.number client messages) := by
  cases hreads : w.canReadPages mime with
  | true =>
    rw [open_of_reads hreads] at hs
    cases hs
    exact Or.inl ⟨rfl, rfl⟩
  | false =>
    cases hclient : w.clientInUse with
    | none => cases (session_open_of_idle hreads hclient now).symm.trans hs
    | some client =>
      rw [open_of_asks hreads hclient] at hs ⊢
      cases hs
      exact Or.inr ⟨client, _, rfl⟩

end Workbench

namespace Office

variable {o o' : Office} {h : List Entry} {e : Entry}

/-- The session that is open reflects what a chronicle says was heard of its
reply. -/
def Reflecting (o : Office) (h : List Entry) : Prop :=
  ∀ s, o.bench.session = some s →
    s.Reflects o.bench.modelLabel (Entry.latestReply s.number h)

theorem exists_command_of_asks {n : Nat} (hasks : e.asks n) :
    ∃ client messages, e.command = some (.openReply n client messages) := by
  obtain ⟨c, hc, hcasks⟩ := (Option.any_eq_true _ _).1 hasks
  obtain rfl := Command.owner_of_asks hcasks
  cases c with
  | openReply owner client messages => exact ⟨client, messages, hc⟩
  | _ => cases hcasks

/-- A question leaves nothing of an earlier reply. -/
theorem reflects_of_asks (hrecorded : o.Recorded h) (hreflecting : o.Reflecting h)
    (hmove : Move o e o') {s : Session} (hs : o'.bench.session = some s)
    (hasks : e.asks s.number) : s.Reflects o.bench.modelLabel (some []) := by
  obtain ⟨client, messages, hcommand⟩ := exists_command_of_asks hasks
  obtain ⟨s', hs', -, hstands⟩ := stands_of_asks hrecorded hmove hasks
  obtain rfl : s = s' := Option.some.inj (hs.symm.trans hs')
  obtain ⟨s₀, -, hquestions, hunheard⟩ := exists_questions hrecorded hmove hcommand
  obtain ⟨now, hsession⟩ := hquestions.session
  obtain rfl : s = s₀.modelStarted now o.bench.modelLabel :=
    Option.some.inj (hs.symm.trans hsession)
  suffices hnothing : s₀.llm.timeless = {} ∧ s₀.received = [] from
    Session.reflects_modelStarted hnothing.1 hnothing.2 hstands
  rcases hunheard with hunheard | ⟨s₁, hs₁, -, hpending, hllm, hreceived⟩
  · rw [hunheard.llm]
    exact ⟨rfl, hunheard.received⟩
  · rw [hllm, hreceived]
    have hreflects := hreflecting s₁ hs₁
    refine hreflects.unasked (Option.eq_none_iff_forall_not_mem.2 fun cs hcs => ?_)
    exact (hreflects.asked cs hcs).1 hpending

/-- A document is opened, and the model is not asked. -/
theorem reflects_of_opens (hrecorded : o.Recorded h) (hreflecting : o.Reflecting h)
    {s : Workshop} {work : StateM Workshop (Except Fault (Option Command))}
    (hwork : Workshop.Opens work) (hbench : s.bench = o.bench) {x : Session}
    (hx : (s.turnOf work).bench.session = some x)
    (hasks : ¬ (entry .opens (s.turnOf work)).asks x.number) :
    x.Reflects o.bench.modelLabel (Entry.latestReply x.number h) := by
  obtain ⟨w, hprepares, hturn⟩ := Workshop.opens_cases hwork s
  rw [hbench] at hprepares
  rcases hturn with ⟨f, hturn⟩ | ⟨now, document, filename, data, mime, text, hturn⟩
  · rw [hturn] at hx
    obtain ⟨_, _, rfl⟩ := hprepares
    exact hreflecting x hx
  · rw [Entry.asks, entry, hturn] at hasks
    rw [hturn] at hx
    have hbegins := Workbench.begins_open hx
    rw [hprepares.spares.opened] at hbegins
    rw [(hrecorded.fresh x.number hbegins.number).2]
    rcases Workbench.unheard_open hx with hunheard | ⟨client, messages, hcommand⟩
    · refine ⟨fun _ => ?_, fun cs hcs => (by cases hcs)⟩
      rw [hunheard.llm]
      exact ⟨rfl, hunheard.received⟩
    · rw [hcommand] at hasks
      exact absurd (beq_self_eq_true x.number) hasks

/-- What one move preserves. -/
theorem reflects_move (hrecorded : o.Recorded h) (hreflecting : o.Reflecting h)
    (hmove : Move o e o') : o'.Reflecting (h ++ [e]) := by
  intro s hs
  rw [(asksLike_move hmove).modelLabel, Entry.latestReply_append, replyAfter]
  split
  · rename_i hasks
    exact reflects_of_asks hrecorded hreflecting hmove hs hasks
  · rename_i hasks
    by_cases hwhat : e.what = .opens
    · cases hmove with
      | opens s' hwork hbench =>
        have hopens := reflects_of_opens hrecorded hreflecting hwork hbench hs hasks
        simpa [Entry.chunk?, Entry.heard?, entry] using hopens
      | _ => cases hwhat
    · obtain ⟨s₁, hs₁, hchange⟩ := change_of_move_ne hrecorded.sound hmove hwhat hs
      rw [hchange.number] at hasks ⊢
      exact hchange.reflects hasks (hreflecting s₁ hs₁)

theorem reflects_of_chronicle {later : List Entry} (hrecorded : o.Recorded h)
    (hreflecting : o.Reflecting h) (hrun : Chronicle o later o') :
    o'.Reflecting (h ++ later) := by
  induction hrun with
  | nil =>
    rw [List.append_nil]
    exact hreflecting
  | snoc hrun hmove ih =>
    rw [← List.append_assoc]
    exact reflects_move (recorded_append hrecorded hrun) ih hmove

end Office
end Intake
