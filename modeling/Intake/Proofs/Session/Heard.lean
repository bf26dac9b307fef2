import Intake.Proofs.Session.Chronicle

/-!
# What was heard

The results that a session holds are what a chronicle says was heard for it:
what was read from the pages is the last progress event, and the reply is
every chunk since the model was last asked.

There are four groups.

* Streams.  `EndsWith` says that events end with their last one.
* Entries.  `Entry.events` and `Entry.latestReply` are what a chronicle says
  was heard for a session.
* Sessions.  `Session.Tells` ties the fields of a session to what was heard;
  `tells_take`, `tells_onKey` and `tells_open` say that a turn preserves it.
* Results.  `Office.Recorded` is the invariant of a chronicle;
  `recorded_move` says what one move preserves, and `recorded_of_chronicle`
  lifts it to runs.
-/

namespace Intake

/-! ## Streams -/

/-- The event is the last of its reading. -/
def Progress.IsLast (p : Progress) : Prop := p.done = true ∨ p.fault ≠ none

/-- The chunk is the last of its reply. -/
def Chunk.IsLast (c : Chunk) : Prop := c.done = true ∨ c.fault ≠ none

/-- The content of chunks. -/
def Chunk.joined (cs : List Chunk) : String := String.join (cs.map (·.text))

/-- Events that end with their last one. -/
structure EndsWith {α : Type} (isLast : α → Prop) (xs : List α) (x : α) : Prop where
  last : isLast x
  split : ∃ earlier, xs = earlier ++ [x] ∧ ∀ y ∈ earlier, ¬ isLast y

theorem Chunk.joined_append (cs : List Chunk) (c : Chunk) :
    joined (cs ++ [c]) = joined cs ++ c.text := by
  rw [joined, List.map_append, String.join_append]
  simp [joined]

theorem filterMap_snoc {α β : Type} (f : α → Option β) (xs : List α) (x : α) :
    (xs ++ [x]).filterMap f = xs.filterMap f ++ (f x).toList := by
  rw [List.filterMap_append, List.filterMap_cons, List.filterMap_nil]
  cases f x with
  | none => rfl
  | some y => rfl

/-! ## Entries -/

/-- The progress event for a session that is delivered. -/
def Delivery.progress? (number : Nat) : Delivery → Option Progress
  | progress owner p => if owner = number then some p else none
  | _ => none

/-- The chunk for a session that is delivered. -/
def Delivery.chunk? (number : Nat) : Delivery → Option Chunk
  | chunk owner c => if owner = number then some c else none
  | _ => none

/-- The command asks the model for a session. -/
def Command.asks (number : Nat) : Command → Bool
  | openReply owner _ _ => owner == number
  | _ => false

theorem Delivery.unheard_of_owner_ne {d : Delivery} {number : Nat} (h : d.owner? ≠ some number) :
    d.progress? number = none ∧ d.chunk? number = none := by
  cases d with
  | progress owner p => exact ⟨if_neg fun heq => h (congrArg some heq), rfl⟩
  | chunk owner c => exact ⟨rfl, if_neg fun heq => h (congrArg some heq)⟩
  | _ => exact ⟨rfl, rfl⟩

theorem Command.asks_of_owner_ne {c : Command} {number : Nat} (h : c.owner ≠ number) :
    c.asks number = false := by
  cases c with
  | openReply owner client messages => exact beq_false_of_ne h
  | _ => rfl

theorem Command.owner_of_asks {c : Command} {number : Nat} (h : c.asks number = true) :
    c.owner = number := by
  by_contra hne
  rw [asks_of_owner_ne hne] at h
  cases h

/-- What was heard of a reply after a command: nothing when the command asks
the model anew. -/
def replyAfter (number : Nat) (command : Option Command) (reply : Option (List Chunk)) :
    Option (List Chunk) :=
  if command.any (·.asks number) then some [] else reply

theorem replyAfter_openReply (number : Nat) (client : ChatClient) (messages : List Message)
    (reply : Option (List Chunk)) :
    replyAfter number (some (.openReply number client messages)) reply = some [] :=
  if_pos (beq_self_eq_true number)

namespace Entry

/-- What is handled. -/
def heard? (e : Entry) : Option Delivery :=
  match e.what with
  | .handles d => some d
  | _ => none

/-- The progress event for a session that is handled. -/
def progress? (number : Nat) (e : Entry) : Option Progress :=
  e.heard?.bind (·.progress? number)

/-- The chunk for a session that is handled. -/
def chunk? (number : Nat) (e : Entry) : Option Chunk := e.heard?.bind (·.chunk? number)

/-- The model is asked for a session. -/
def asks (number : Nat) (e : Entry) : Prop := e.command.any (·.asks number) = true

/-- The progress events that were handled for a session. -/
def events (number : Nat) (h : List Entry) : List Progress := h.filterMap (·.progress? number)

/-- The chunks that were handled for a session. -/
def chunks (number : Nat) (h : List Entry) : List Chunk := h.filterMap (·.chunk? number)

/-- The chunks that were handled for a session since its model was last
asked; `none` when it never was. -/
def latestReply (number : Nat) (h : List Entry) : Option (List Chunk) :=
  h.foldl (fun reply e => replyAfter number e.command
    (reply.map (· ++ (e.chunk? number).toList))) none

/-- An entry that tells nothing of a session. -/
structure Quiet (number : Nat) (e : Entry) : Prop where
  progress : e.progress? number = none
  chunk : e.chunk? number = none
  asks : e.command.any (·.asks number) = false

variable {number : Nat} {h : List Entry} {e : Entry}

theorem quiet_of_owner_ne (hheard : ∀ d, e.heard? = some d → d.owner? ≠ some number)
    (hcommand : ∀ c, e.command = some c → c.owner ≠ number) : e.Quiet number := by
  have hunheard : e.progress? number = none ∧ e.chunk? number = none := by
    rw [progress?, chunk?]
    cases hd : e.heard? with
    | none => exact ⟨rfl, rfl⟩
    | some d => exact Delivery.unheard_of_owner_ne (hheard d hd)
  refine ⟨hunheard.1, hunheard.2, ?_⟩
  cases hc : e.command with
  | none => rfl
  | some c => exact Command.asks_of_owner_ne (hcommand c hc)

theorem events_append :
    events number (h ++ [e]) = events number h ++ (e.progress? number).toList :=
  filterMap_snoc _ h e

theorem latestReply_append : latestReply number (h ++ [e]) = replyAfter number e.command
    ((latestReply number h).map (· ++ (e.chunk? number).toList)) := by
  rw [latestReply, List.foldl_append]
  rfl

theorem events_quiet (hquiet : e.Quiet number) :
    events number (h ++ [e]) = events number h := by
  rw [events_append, hquiet.progress]
  simp

theorem latestReply_quiet (hquiet : e.Quiet number) :
    latestReply number (h ++ [e]) = latestReply number h := by
  rw [latestReply_append, replyAfter, hquiet.asks, hquiet.chunk]
  cases latestReply number h with
  | none => rfl
  | some cs => simp

/-- What was heard of the latest reply was heard since some entry asked for
it. -/
theorem split_of_latestReply {cs : List Chunk} (hreply : latestReply number h = some cs) :
    ∃ earlier ask later, h = earlier ++ ask :: later ∧ ask.asks number ∧
      (∀ e ∈ later, ¬ e.asks number) ∧ chunks number later = cs := by
  induction h using List.reverseRecOn generalizing cs with
  | nil => cases hreply
  | append_singleton h e ih =>
    rw [latestReply_append, replyAfter] at hreply
    split at hreply
    · rename_i hasks
      obtain rfl : [] = cs := Option.some.inj hreply
      exact ⟨h, e, [], rfl, hasks, fun _ he => (List.not_mem_nil he).elim, rfl⟩
    · rename_i hasks
      obtain ⟨before, hbefore, rfl⟩ := Option.map_eq_some_iff.1 hreply
      obtain ⟨earlier, ask, later, rfl, hask, hlater, rfl⟩ := ih hbefore
      exact ⟨earlier, ask, later ++ [e], by simp, hask,
        List.forall_mem_append.2 ⟨hlater, List.forall_mem_singleton.2 hasks⟩,
        filterMap_snoc _ later e⟩

end Entry

/-! ## Sessions -/

/-- What was read from the pages is what the last event brought. -/
structure PagesTold (status : StepStatus) (pages : Page) (events : List Progress) : Prop where
  waiting : status = .pending → events = []
  reading : status = .running → ∀ p ∈ events, ¬ p.IsLast
  read : status = .done → ∃ p, EndsWith Progress.IsLast events p ∧ p.fault = none ∧
    pages = ⟨p.text, p.table⟩

/-- The hints are those of the whole reply, and it has ended. -/
def Reply.Whole (cs : List Chunk) (hints : Hints) : Prop :=
  (∃ c, EndsWith Chunk.IsLast cs c ∧ c.fault = none) ∧ Reply.read (Chunk.joined cs) = .ok hints

/-- The pieces of the reply are what was heard since the model was asked,
and the hints are those of the whole reply. -/
structure ReplyTold (status : StepStatus) (received : List String) (hints : Option Hints)
    (reply : Option (List Chunk)) : Prop where
  unasked : status = .pending → received = []
  asked : status = .running → ∃ cs, reply = some cs ∧ String.join received = Chunk.joined cs
  replied : status = .done → ∃ cs h, reply = some cs ∧ hints = some h ∧ Reply.Whole cs h

/-- A session holds what was heard for it. -/
structure Session.Tells (s : Session) (events : List Progress) (reply : Option (List Chunk)) :
    Prop where
  pages : PagesTold s.ocr.status s.pages events
  reply : ReplyTold s.llm.status s.received s.hints reply

/-- What was heard of a reply does not end it. -/
def Unfinished (reply : Option (List Chunk)) : Prop := ∀ cs ∈ reply, ∀ c ∈ cs, ¬ c.IsLast

/-- A command that a turn gives is for the session that is open afterwards. -/
def Turn.IsAttended (t : Turn) : Prop :=
  ∀ c, t.command? = some c → ∃ s, t.bench.session = some s ∧ s.number = c.owner

/-- A turn after which the open session, if there is one, has the number and
holds what was heard for it.  Work for its model is given only while the reply
has not ended. -/
structure Turn.Tells (t : Turn) (number : Nat) (events : List Progress)
    (reply : Option (List Chunk)) : Prop where
  session : ∀ s, t.bench.session = some s →
    s.number = number ∧ s.Tells events (replyAfter number t.command? reply)
  attended : t.IsAttended
  unfinished : ∀ c, t.command? = some c → c.layer = .llm →
    Unfinished (replyAfter number t.command? reply)

namespace Workbench

variable {w : Workbench} {s : Session} {events : List Progress} {reply : Option (List Chunk)}

/-- A turn that gives no command. -/
theorem tells_of_command_none {t : Turn} {number : Nat} (hcommand : t.command? = none)
    (h : ∀ s, t.bench.session = some s → s.number = number ∧ s.Tells events reply) :
    t.Tells number events reply := by
  have hno : ∀ c, t.command? ≠ some c := fun c hc => by cases hcommand.symm.trans hc
  refine ⟨fun s hs => ?_, fun c hc => absurd hc (hno c), fun c hc => absurd hc (hno c)⟩
  rw [hcommand]
  exact h s hs

/-- The model starts with nothing heard of its reply. -/
theorem tells_startModel (now : Float) (client : ChatClient)
    (hpages : PagesTold s.ocr.status s.pages events) (hreceived : s.received = []) :
    (w.startModel now client s).Tells s.number events reply := by
  refine ⟨?_, ?_, ?_⟩
  · rintro s' ⟨⟩
    refine ⟨rfl, hpages, ?_⟩
    show ReplyTold .running s.received s.hints
      (replyAfter s.number (some (.openReply s.number client _)) reply)
    rw [replyAfter_openReply, hreceived]
    exact ⟨StepStatus.noConfusion, fun _ => ⟨[], rfl, rfl⟩, StepStatus.noConfusion⟩
  · rintro c ⟨⟩
    exact ⟨_, rfl, rfl⟩
  · intro _ _ _
    show Unfinished (replyAfter s.number (some (.openReply s.number client _)) reply)
    rw [replyAfter_openReply]
    rintro cs ⟨⟩ c hc
    exact (List.not_mem_nil hc).elim

theorem tells_afterPages (now : Float) (hpages : PagesTold s.ocr.status s.pages events)
    (hreply : ReplyTold s.llm.status s.received s.hints reply) (hllm : s.llm.status = .pending) :
    (w.afterPages now s).Tells s.number events reply := by
  rw [afterPages]
  split
  · exact tells_startModel now _ hpages (hreply.unasked hllm)
  · refine tells_of_command_none rfl ?_
    rintro s' ⟨⟩
    exact ⟨rfl, hpages, hreply⟩

/-! ### Deliveries -/

theorem tells_onProgress (now : Float) (p : Progress) (hocr : s.ocr.status = .running)
    (hllm : s.llm.status = .pending) (h : s.Tells events reply) :
    (w.onProgress now s p).Tells s.number (events ++ [p]) reply := by
  have hreading := h.pages.reading hocr
  rw [onProgress]
  split
  · rename_i e _
    exact tells_afterPages (s := s.pagesFailed now e) now
      ⟨StepStatus.noConfusion, StepStatus.noConfusion, StepStatus.noConfusion⟩ h.reply hllm
  · rename_i hfault
    split
    · rename_i hdone
      have hread : PagesTold .done ⟨p.text, p.table⟩ (events ++ [p]) :=
        ⟨StepStatus.noConfusion, StepStatus.noConfusion,
          fun _ => ⟨p, ⟨Or.inl hdone, events, rfl, hreading⟩, hfault, rfl⟩⟩
      exact tells_afterPages (s := s.pagesRead now ⟨p.text, p.table⟩) now hread h.reply hllm
    · rename_i hdone
      have hlast : ¬ p.IsLast := fun hlast => hlast.elim hdone fun hne => hne hfault
      have hmoved : PagesTold s.ocr.status s.pages (events ++ [p]) := by
        rw [hocr]
        exact ⟨StepStatus.noConfusion, fun _ => List.forall_mem_append.2
          ⟨hreading, List.forall_mem_singleton.2 hlast⟩,
          StepStatus.noConfusion⟩
      refine ⟨?_, ?_, ?_⟩
      · rintro s' ⟨⟩
        exact ⟨rfl, hmoved, h.reply⟩
      · rintro c ⟨⟩
        exact ⟨_, rfl, rfl⟩
      · rintro c ⟨⟩ ⟨⟩

/-- A piece of the reply changes what was received and nothing else that
was heard. -/
theorem replyGrown_eq (s : Session) (piece : String) : ∃ received logs,
    s.replyGrown piece = { s with received := received, llm := { s.llm with logs := logs } } ∧
      String.join received = String.join s.received ++ piece := by
  rw [Session.replyGrown]
  split
  · rename_i hempty
    refine ⟨s.received, s.llm.logs, rfl, ?_⟩
    rw [String.isEmpty_iff.1 hempty, String.append_empty]
  · refine ⟨_, _, rfl, ?_⟩
    rw [String.join_append]
    simp

/-- The hints are those of the whole reply.  A reading that breaks off leaves
the step with all of the reply. -/
theorem tells_readReply {cs : List Chunk} {c : Chunk}
    (hpages : PagesTold s.ocr.status s.pages events) (hllm : s.llm.status = .running)
    (hends : EndsWith Chunk.IsLast cs c) (hfault : c.fault = none)
    (hjoin : s.replyText = Chunk.joined cs) :
    (w.readReply s).Tells s.number events (some cs) := by
  rw [readReply]
  cases hread : Reply.read s.replyText with
  | ok hints =>
    refine tells_of_command_none rfl ?_
    rintro s' ⟨⟩
    refine ⟨rfl, hpages, StepStatus.noConfusion, StepStatus.noConfusion, fun _ => ?_⟩
    exact ⟨cs, hints, rfl, rfl, ⟨c, hends, hfault⟩, hjoin ▸ hread⟩
  | error failure =>
    cases failure with
    | malformed m =>
      refine tells_of_command_none rfl ?_
      rintro s' ⟨⟩
      exact ⟨rfl, hpages, StepStatus.noConfusion, StepStatus.noConfusion, StepStatus.noConfusion⟩
    | overflow =>
      refine tells_of_command_none rfl ?_
      rintro s' ⟨⟩
      have hleft : ReplyTold s.llm.status s.received s.hints (some cs) := by
        rw [hllm]
        exact ⟨StepStatus.noConfusion, fun _ => ⟨cs, rfl, hjoin⟩, StepStatus.noConfusion⟩
      exact ⟨rfl, hpages, hleft⟩

theorem tells_onChunk (now : Float) {cs : List Chunk} (c : Chunk)
    (hllm : s.llm.status = .running) (hunfinished : Unfinished (some cs))
    (h : s.Tells events (some cs)) :
    (w.onChunk now s c).Tells s.number events (some (cs ++ [c])) := by
  have hearlier := hunfinished cs rfl
  obtain ⟨_, hreply, hbefore⟩ := h.reply.asked hllm
  cases hreply
  rw [onChunk]
  split
  · refine tells_of_command_none rfl ?_
    rintro s' ⟨⟩
    exact ⟨rfl, h.pages, StepStatus.noConfusion, StepStatus.noConfusion, StepStatus.noConfusion⟩
  · rename_i hfault
    obtain ⟨received, logs, hgrown, hjoin⟩ := replyGrown_eq s c.text
    have hafter : String.join received = Chunk.joined (cs ++ [c]) := by
      rw [hjoin, hbefore, Chunk.joined_append]
    rw [hgrown]
    dsimp only
    split
    · rename_i hdone
      exact tells_readReply
        (s := Session.replyEnded { s with received, llm := { s.llm with logs } } now)
        h.pages hllm ⟨Or.inl hdone, cs, rfl, hearlier⟩ hfault hafter
    · rename_i hdone
      have hlast : ¬ c.IsLast := fun hlast => hlast.elim hdone fun hne => hne hfault
      have hmore : ReplyTold s.llm.status received s.hints (some (cs ++ [c])) := by
        rw [hllm]
        exact ⟨StepStatus.noConfusion, fun _ => ⟨_, rfl, hafter⟩, StepStatus.noConfusion⟩
      refine ⟨?_, ?_, ?_⟩
      · rintro s' ⟨⟩
        exact ⟨rfl, h.pages, hmore⟩
      · rintro c' ⟨⟩
        exact ⟨_, rfl, rfl⟩
      · rintro c' ⟨⟩ _ cs' ⟨⟩
        exact List.forall_mem_append.2 ⟨hearlier, List.forall_mem_singleton.2 hlast⟩

theorem tells_take (now : Float) {k : LayerKind} (hstands : s.Stands (some k))
    (h : s.Tells events reply) (hunfinished : k = .llm → Unfinished reply) {d : Delivery}
    (howner : d.owner? = some s.number) (hlayer : d.layer? = some k) :
    (w.take now s d).Tells s.number (events ++ (d.progress? s.number).toList)
      (reply.map (· ++ (d.chunk? s.number).toList)) := by
  cases d with
  | progress owner p =>
    obtain rfl : LayerKind.ocr = k := Option.some.inj hlayer
    obtain rfl : owner = s.number := Option.some.inj howner
    have hturn := tells_onProgress (w := w) now p hstands.ocr.2 hstands.llm h
    simpa [Delivery.progress?, Delivery.chunk?, take] using hturn
  | replyOpened owner stream =>
    obtain rfl : LayerKind.llm = k := Option.some.inj hlayer
    have hturn : (w.take now s (.replyOpened owner stream)).Tells s.number events reply := by
      refine ⟨?_, ?_, fun _ _ _ => hunfinished rfl⟩
      · rintro s' ⟨⟩
        exact ⟨rfl, h.pages, h.reply⟩
      · rintro c ⟨⟩
        exact ⟨_, rfl, rfl⟩
    simpa [Delivery.progress?, Delivery.chunk?] using hturn
  | chunk owner c =>
    obtain rfl : LayerKind.llm = k := Option.some.inj hlayer
    obtain rfl : owner = s.number := Option.some.inj howner
    obtain ⟨cs, rfl, -⟩ := h.reply.asked hstands.llm.2
    have hturn := tells_onChunk (w := w) now c hstands.llm.2 (hunfinished rfl) h
    simpa [Delivery.progress?, Delivery.chunk?, take] using hturn
  | key k' => cases howner
  | other owner => cases hlayer

/-! ### Keys -/

theorem session_accept (w : Workbench) :
    w.accept.1.session = none ∨ w.accept.1.session = w.session := by
  rw [accept]
  split
  · rename_i hs
    exact Or.inr rfl
  · split
    · exact Or.inr rfl
    · split
      · exact Or.inl rfl
      · split
        · exact Or.inl rfl
        · dsimp only
          split
          · exact Or.inr rfl
          · exact Or.inr rfl

/-- A key changes nothing that was heard, and the model is asked again only
when the session is done. -/
theorem tells_onKey (hs : w.session = some s) (h : s.Tells events reply) (now : Float) (k : Key) :
    (w.onKey now k).Tells s.number events reply ∧
      ((w.onKey now k).command? = none ∨ s.done = true) := by
  have hkeeps : ∀ {t : Turn}, t.command? = none →
      (∀ s', t.bench.session = some s' → s'.number = s.number ∧ s'.Tells events reply) →
      t.Tells s.number events reply ∧ (t.command? = none ∨ s.done = true) :=
    fun hcommand hsession => ⟨tells_of_command_none hcommand hsession, Or.inl hcommand⟩
  have hself : ∀ s', w.session = some s' → s'.number = s.number ∧ s'.Tells events reply := by
    intro s' hs'
    obtain rfl : s = s' := Option.some.inj (hs.symm.trans hs')
    exact ⟨rfl, h⟩
  have hview : ∀ f : Session → Session, (f s).number = s.number → (f s).Tells events reply →
      Turn.Tells ⟨w.onSession f, .ok none⟩ s.number events reply ∧
        (Turn.command? ⟨w.onSession f, .ok none⟩ = none ∨ s.done = true) := by
    intro f hnumber htells
    refine hkeeps rfl fun s' hs' => ?_
    rw [onSession, hs] at hs'
    cases hs'
    exact ⟨hnumber, htells⟩
  unfold onKey
  rw [hs]
  cases k with
  | escape =>
    refine hkeeps rfl fun s' hs' => ?_
    have hcancel := (frames_cancel w).2.2.1
    rw [hcancel] at hs'
    cases hs'
  | rerun =>
    show (w.rerun now).Tells _ _ _ ∧ ((w.rerun now).command? = none ∨ _)
    rw [rerun, hs]
    split
    · rename_i s' client hs' hclient
      obtain rfl : s = s' := Option.some.inj hs'
      split
      · rename_i hrerun
        simp only [canRerun, Bool.and_eq_true] at hrerun
        exact ⟨tells_startModel (s := s.modelReset) now client h.pages rfl, Or.inr hrerun.1.1⟩
      · exact hkeeps rfl hself
    · exact hkeeps rfl hself
  | accept =>
    refine hkeeps (command?_map_none _ _) fun s' hs' => ?_
    rcases session_accept w with hnone | hsame
    · cases hnone.symm.trans hs'
    · exact hself s' (hsame.symm.trans hs')
  | down => exact hview _ rfl ⟨h.pages, h.reply⟩
  | up => exact hview _ rfl ⟨h.pages, h.reply⟩
  | enter => exact hview _ rfl ⟨h.pages, h.reply⟩
  | other => exact hkeeps rfl hself

/-! ### Opening -/

/-- A new session holds nothing, and nothing was heard for it. -/
theorem tells_open (w : Workbench) (now : Float) (document : Int) (filename : String)
    (data : Text.Utf8.Bytes) (mime text : String) :
    (w.open now document filename data mime text).Tells (w.opened + 1) [] none := by
  have hpages : PagesTold .pending {} [] :=
    ⟨fun _ => rfl, StepStatus.noConfusion, StepStatus.noConfusion⟩
  have hreply : ReplyTold .pending [] none none :=
    ⟨fun _ => rfl, StepStatus.noConfusion, StepStatus.noConfusion⟩
  rw [Workbench.open]
  split
  · have hreading : PagesTold .running {} [] :=
      ⟨StepStatus.noConfusion, fun _ _ hp => (List.not_mem_nil hp).elim, StepStatus.noConfusion⟩
    refine ⟨?_, ?_, ?_⟩
    · rintro s' ⟨⟩
      exact ⟨rfl, hreading, hreply⟩
    · rintro c ⟨⟩
      exact ⟨_, rfl, rfl⟩
    · rintro c ⟨⟩ ⟨⟩
  · rename_i client _ _
    exact tells_startModel (w := w.begun)
      (s := w.newSession document filename data mime text) now client hpages rfl
  · refine tells_of_command_none rfl fun s hs => ?_
    rw [show (w.cancel.note _ _ _).session = w.cancel.session from rfl,
      (frames_cancel w).2.2.1] at hs
    cases hs

end Workbench

/-! ## Results -/

/-- The open session holds what a chronicle says was heard for it; work for
its model is under way only while the reply has not ended. -/
def Workbench.Tells (w : Workbench) (items : List Task) (h : List Entry) : Prop :=
  ∀ s, w.session = some s →
    s.Tells (Entry.events s.number h) (Entry.latestReply s.number h) ∧
      ∀ task ∈ items, task.owner? = some s.number → task.layer? = some .llm →
        Unfinished (Entry.latestReply s.number h)

/-- A turn goes on with the session that was open, or opens one whose number
was not given out before. -/
structure Turn.Follows (t : Turn) (w : Workbench) : Prop where
  attended : t.IsAttended
  number : ∀ s, t.bench.session = some s →
    (∃ s', w.session = some s' ∧ s.number = s'.number) ∨ w.opened < s.number

theorem Turn.Follows.congr {t t' : Turn} {w : Workbench} (h : t.Follows w)
    (hbench : t'.bench = t.bench) (hcommand : t'.command? = t.command?) : t'.Follows w := by
  refine ⟨fun c hc => ?_, fun s hs => h.number s (hbench ▸ hs)⟩
  rw [hbench]
  exact h.attended c (hcommand ▸ hc)

theorem Turn.Tells.follows {t : Turn} {w : Workbench} {s : Session} {events : List Progress}
    {reply : Option (List Chunk)} (h : t.Tells s.number events reply) (hs : w.session = some s) :
    t.Follows w :=
  ⟨h.attended, fun s' hs' => Or.inl ⟨s, hs, (h.session s' hs').1⟩⟩

namespace Workbench

variable {w : Workbench} {items : List Task} {h : List Entry} {e : Entry}

/-- Other work under way, each piece for a session and a step for which there
was some. -/
theorem Tells.of_items {items' : List Task} (htells : w.Tells items h)
    (hitems : ∀ task ∈ items', ∃ task' ∈ items,
      task'.owner? = task.owner? ∧ task'.layer? = task.layer?) : w.Tells items' h := by
  intro s hs
  obtain ⟨hsession, hwaits⟩ := htells s hs
  refine ⟨hsession, fun task htask howner hlayer => ?_⟩
  obtain ⟨task', htask', howner', hlayer'⟩ := hitems task htask
  exact hwaits task' htask' (howner'.trans howner) (hlayer'.trans hlayer)

/-- An entry that tells nothing of the open session. -/
theorem Tells.quiet (htells : w.Tells items h)
    (hquiet : ∀ s, w.session = some s → e.Quiet s.number) : w.Tells items (h ++ [e]) := by
  intro s hs
  rw [Entry.events_quiet (hquiet s hs), Entry.latestReply_quiet (hquiet s hs)]
  exact htells s hs

theorem follows_of_session {t : Turn} (hsession : t.bench.session = w.session)
    (hcommand : t.command? = none) : t.Follows w := by
  refine ⟨fun c hc => ?_, fun s hs => Or.inl ⟨s, hsession.symm.trans hs, rfl⟩⟩
  cases hcommand.symm.trans hc

/-- The command of a turn takes its place among the work under way. -/
theorem tells_turn {t : Turn} {n : Nat} (hcommand : e.command = t.command?)
    (hturn : t.Tells n (Entry.events n (h ++ [e]))
      ((Entry.latestReply n h).map (· ++ (e.chunk? n).toList)))
    (hitems : ∀ task ∈ items, task.owner? = some n → task.layer? = some .llm →
      Unfinished (Entry.latestReply n (h ++ [e]))) :
    t.bench.Tells ((t.command?.map Task.fresh).toList ++ items) (h ++ [e]) := by
  intro s hs
  have hreply : Entry.latestReply n (h ++ [e]) = _ := Entry.latestReply_append
  rw [hcommand] at hreply
  obtain ⟨rfl, hsession⟩ := hturn.session s hs
  refine ⟨hreply ▸ hsession, fun task htask howner hlayer => ?_⟩
  rcases List.mem_append.1 htask with htask | htask
  · obtain ⟨c, hc, rfl⟩ := Option.map_eq_some_iff.1 (Option.mem_toList.1 htask)
    exact hreply ▸ hturn.unfinished c hc (Option.some.inj hlayer)
  · exact hitems task htask howner hlayer

/-- A key is pressed, or the workbench is called directly. -/
theorem tells_key (htells : w.Tells items h) (hsound : w.Sound False items) (now : Float) (k : Key)
    (hheard : ∀ number, e.progress? number = none ∧ e.chunk? number = none)
    (hcommand : e.command = (w.handle now (.key k)).command?) :
    (w.handle now (.key k)).bench.Tells
        (((w.handle now (.key k)).command?.map Task.fresh).toList ++ items) (h ++ [e]) ∧
      (w.handle now (.key k)).Follows w := by
  cases hs : w.session with
  | none =>
    rw [handle_key_of_none hs]
    refine ⟨fun s hs' => ?_, follows_of_session rfl rfl⟩
    cases hs.symm.trans hs'
  | some s =>
    obtain ⟨hsession, hwaits⟩ := htells s hs
    obtain ⟨hturn, hwhen⟩ := tells_onKey hs hsession now k
    obtain ⟨hprogress, hchunk⟩ := hheard s.number
    rw [handle_key_of_some hs] at hcommand ⊢
    refine ⟨tells_turn (n := s.number) hcommand ?_ ?_, hturn.follows hs⟩
    · rw [Entry.events_append, hprogress, hchunk]
      simpa using hturn
    · rcases hwhen with hnone | hdone
      · rw [hnone] at hcommand
        have hquiet : e.Quiet s.number := ⟨hprogress, hchunk, by rw [hcommand]; rfl⟩
        rw [Entry.latestReply_quiet hquiet]
        exact hwaits
      · obtain ⟨k?, hstands, hworks⟩ := (hsound.session s hs).stands
        obtain rfl := Session.eq_none_of_done hstands hdone
        intro task htask howner
        exact absurd howner (works_none_iff_idle.1 hworks task htask)

/-- What was delivered is handled. -/
theorem tells_handle {d : Delivery} (htells : w.Tells (.ended (some d) :: items) h)
    (hsound : w.Sound False (.ended (some d) :: items)) (now : Float)
    (hheard : e.what = .handles d) (hcommand : e.command = (w.handle now d).command?) :
    (w.handle now d).bench.Tells (((w.handle now d).command?.map Task.fresh).toList ++ items)
        (h ++ [e]) ∧
      (w.handle now d).Follows w := by
  have hd : e.heard? = some d := by rw [Entry.heard?, hheard]
  have hrest : w.Tells items h :=
    htells.of_items fun task htask => ⟨task, List.mem_cons_of_mem _ htask, rfl, rfl⟩
  cases howner : d.owner? with
  | none =>
    obtain ⟨k, rfl⟩ := Delivery.eq_key_of_owner?_eq_none howner
    refine tells_key hrest (sound_lose hsound fun s _ hmine => by cases hmine) now k ?_ hcommand
    intro number
    rw [Entry.progress?, Entry.chunk?, hd]
    exact ⟨rfl, rfl⟩
  | some owner =>
    by_cases hopen : ∀ s ∈ w.session, s.number ≠ owner
    · rw [handle_of_not_owner now howner hopen] at hcommand ⊢
      have hsame : (w.drop d).session = w.session := (drop_frames w d).2
      refine ⟨fun s hs => ?_, follows_of_session hsame rfl⟩
      have hquiet : ∀ s, w.session = some s → e.Quiet s.number := by
        intro s hs
        refine Entry.quiet_of_owner_ne (fun d' hd' hmine => ?_) fun c hc => ?_
        · obtain rfl : d = d' := Option.some.inj (hd.symm.trans hd')
          exact hopen s hs (Option.some.inj (hmine.symm.trans howner))
        · cases hcommand.symm.trans hc
      exact hrest.quiet hquiet s (hsame.symm.trans hs)
    · simp only [not_forall, not_not] at hopen
      obtain ⟨s, hs, rfl⟩ := hopen
      obtain ⟨hsession, hwaits⟩ := htells s hs
      obtain ⟨k?, hstands, hworks⟩ := (hsound.session s hs).stands
      obtain ⟨hidle, k, rfl, hlayer⟩ := hworks.rest howner
      have hturn := tells_take (w := w) now hstands hsession
        (fun hllm => hwaits _ List.mem_cons_self howner (hlayer.trans (congrArg some hllm)))
        howner hlayer
      rw [handle_of_owner hs howner] at hcommand ⊢
      refine ⟨tells_turn (n := s.number) hcommand ?_ ?_, hturn.follows hs⟩
      · rw [Entry.events_append, Entry.progress?, Entry.chunk?, hd]
        exact hturn
      · intro task htask hmine
        exact absurd hmine (hidle task htask)

end Workbench

namespace Office

variable {o o' : Office} {h : List Entry} {e : Entry}

/-- The invariant of a chronicle.  Nothing was heard for sessions that are
still to come. -/
structure Recorded (o : Office) (h : List Entry) : Prop where
  sound : o.Sound False
  tells : o.bench.Tells o.items h
  fresh : ∀ number, o.bench.opened < number →
    Entry.events number h = [] ∧ Entry.latestReply number h = none

/-- The turn that a move amounts to. -/
def turnTo (o : Office) (e : Entry) : Turn := ⟨o.bench, .ok e.command⟩

theorem mem_items_of_heard (hmove : Move o e o') {d : Delivery} (hd : e.heard? = some d) :
    .ended (some d) ∈ o.items := by
  cases hmove with
  | handles now hqueue =>
    obtain rfl := Option.some.inj hd
    exact (items_without hqueue).mem_iff.2 List.mem_cons_self
  | _ => cases hd

theorem mem_items_after {o : Office} {t : Turn} {c : Command} (hc : t.command? = some c) :
    .fresh c ∈ (o.after t).items := by
  rw [(items_after o t).mem_iff, hc]
  exact List.mem_cons_self

theorem mem_items_of_command (hmove : Move o e o') {c : Command} (hc : e.command = some c) :
    .fresh c ∈ o'.items := by
  cases hmove with
  | opens s hwork hbench => exact mem_items_after hc
  | reruns now => exact mem_items_after hc
  | handles now hd => exact mem_items_after hc
  | _ => cases hc

/-- An entry tells nothing of sessions that are still to come. -/
theorem quiet_of_lt (hsound : o.Sound False) (hmove : Move o e o') {number : Nat}
    (hnumber : o'.bench.opened < number) : e.Quiet number := by
  have hsound' := sound_move hsound hmove
  have hopened := (spares_move hmove).2
  refine Entry.quiet_of_owner_ne (fun d hd howner => ?_) fun c hc howner => ?_
  · have hle := hsound.owner_le _ (mem_items_of_heard hmove hd) number howner
    omega
  · have hle := hsound'.owner_le _ (mem_items_of_command hmove hc) number (congrArg some howner)
    omega

theorem tells_after {t : Turn}
    (htells : t.bench.Tells ((t.command?.map Task.fresh).toList ++ o.items) h) :
    (o.after t).bench.Tells (o.after t).items h :=
  htells.of_items fun task htask => ⟨task, (items_after o t).mem_iff.1 htask, rfl, rfl⟩

theorem tells_carry {i : Nat} {task : Task} {s : Workshop} (htells : o.bench.Tells o.items h)
    (htask : o.loop.running[i]? = some task) (hbench : s.bench = o.bench) :
    (o.carry i (Workshop.proceed task s)).bench.Tells
        (o.carry i (Workshop.proceed task s)).items (h ++ [{ what := .carries }]) ∧
      Turn.Follows ⟨(o.carry i (Workshop.proceed task s)).bench, .ok none⟩ o.bench := by
  obtain ⟨rest, hbefore, hafter⟩ := items_carry htask (Workshop.proceed task s)
  have hitems : o.bench.Tells (o.carry i (Workshop.proceed task s)).items h := by
    refine htells.of_items fun task' htask' => ?_
    rcases List.mem_append.1 (hafter.mem_iff.1 htask') with htask' | htask'
    · rcases remains_proceed s task with ⟨left, hremains, howner, hlayer⟩ | ⟨hremains, -⟩
      · rw [hremains] at htask'
        obtain rfl := List.mem_singleton.1 htask'
        exact ⟨task, hbefore.mem_iff.2 List.mem_cons_self, howner.symm, hlayer.symm⟩
      · rw [hremains] at htask'
        exact (List.not_mem_nil htask').elim
    · exact ⟨task', hbefore.mem_iff.2 (List.mem_cons_of_mem _ htask'), rfl, rfl⟩
  have hquiet : o.bench.Tells (o.carry i (Workshop.proceed task s)).items
      (h ++ [{ what := .carries }]) := hitems.quiet fun _ _ => ⟨rfl, rfl, rfl⟩
  rcases bench_carry hbench i task with hcarry | ⟨owner, stream, hcarry⟩
  · rw [hcarry]
    exact ⟨hquiet, Workbench.follows_of_session rfl rfl⟩
  · rw [hcarry]
    have hinformed : ∀ s : Session, (Workshop.informed owner stream s).number = s.number ∧
        ∀ events reply, s.Tells events reply →
          (Workshop.informed owner stream s).Tells events reply := by
      intro s
      rw [Workshop.informed]
      split
      · exact ⟨rfl, fun _ _ htold => ⟨htold.pages, htold.reply⟩⟩
      · exact ⟨rfl, fun _ _ htold => htold⟩
    refine ⟨fun s' hs' => ?_, fun c hc => (by cases hc), fun s' hs' => ?_⟩
    · obtain ⟨s, hs, rfl⟩ := Option.map_eq_some_iff.1 hs'
      obtain ⟨hnumber, htold⟩ := hinformed s
      obtain ⟨hsession, hwaits⟩ := hquiet s hs
      rw [hnumber]
      exact ⟨htold _ _ hsession, hwaits⟩
    · obtain ⟨s, hs, rfl⟩ := Option.map_eq_some_iff.1 hs'
      exact Or.inl ⟨s, hs, (hinformed s).1⟩

theorem tells_opens {s : Workshop} {work : StateM Workshop (Except Fault (Option Command))}
    (hrecorded : o.Recorded h) (hwork : Workshop.Opens work) (hbench : s.bench = o.bench) :
    (o.after (s.turnOf work)).bench.Tells (o.after (s.turnOf work)).items
        (h ++ [entry .opens (s.turnOf work)]) ∧ (s.turnOf work).Follows o.bench := by
  obtain ⟨w, hprepares, hturn⟩ := Workshop.opens_cases hwork s
  rw [hbench] at hprepares
  obtain ⟨-, hopened⟩ := hprepares.spares
  rcases hturn with ⟨e, hturn⟩ | ⟨now, document, filename, data, mime, text, hturn⟩
  · rw [hturn]
    obtain ⟨capabilities, records, rfl⟩ := hprepares
    refine ⟨tells_after fun s' hs' => ?_, Workbench.follows_of_session rfl rfl⟩
    exact hrecorded.tells.quiet (fun _ _ => ⟨rfl, rfl, rfl⟩) s' hs'
  · rw [hturn]
    have hopens := Workbench.tells_open w now document filename data mime text
    obtain ⟨hevents, hreply⟩ := hrecorded.fresh (w.opened + 1) (by omega)
    refine ⟨tells_after (Workbench.tells_turn (n := w.opened + 1) rfl ?_ ?_),
      hopens.attended, fun s' hs' => Or.inr ?_⟩
    · rw [Entry.events_append, hevents, hreply]
      exact hopens
    · intro task htask howner
      have hle := hrecorded.sound.owner_le task htask _ howner
      omega
    · have hnumber := (hopens.session s' hs').1
      omega

/-- What one move preserves. -/
theorem recorded_move (hrecorded : o.Recorded h) (hmove : Move o e o') :
    o'.Recorded (h ++ [e]) ∧ (o'.turnTo e).Follows o.bench := by
  have hfresh : ∀ number, o'.bench.opened < number →
      Entry.events number (h ++ [e]) = [] ∧ Entry.latestReply number (h ++ [e]) = none := by
    intro number hnumber
    have hquiet := quiet_of_lt hrecorded.sound hmove hnumber
    have hopened := (spares_move hmove).2
    rw [Entry.events_quiet hquiet, Entry.latestReply_quiet hquiet]
    exact hrecorded.fresh number (by omega)
  have htells : o'.bench.Tells o'.items (h ++ [e]) ∧ (o'.turnTo e).Follows o.bench := by
    cases hmove with
    | opens s hwork hbench =>
      obtain ⟨htold, hfollows⟩ := tells_opens hrecorded hwork hbench
      exact ⟨htold, hfollows.congr rfl rfl⟩
    | reruns now =>
      rw [Workbench.rerun_eq_handle]
      have hkey := Workbench.tells_key (e := entry .reruns (o.bench.handle now (.key .rerun)))
        hrecorded.tells hrecorded.sound now .rerun (fun _ => ⟨rfl, rfl⟩) rfl
      exact ⟨tells_after hkey.1, hkey.2.congr rfl rfl⟩
    | cancels =>
      have hkey := Workbench.tells_key (e := { what := .cancels }) hrecorded.tells
        hrecorded.sound 0 .escape (fun _ => ⟨rfl, rfl⟩) (Workbench.command?_escape _ _).symm
      have hcommand := Workbench.command?_escape o.bench 0
      have hbench := Workbench.cancel_eq_handle o.bench 0
      rw [hcommand, ← hbench] at hkey
      exact ⟨hkey.1, hkey.2.congr hbench hcommand.symm⟩
    | accepts =>
      have hkey := Workbench.tells_key (e := { what := .accepts, saved := o.bench.saved? })
        hrecorded.tells hrecorded.sound 0 .accept (fun _ => ⟨rfl, rfl⟩)
        (Workbench.command?_accept _ _).symm
      have hcommand := Workbench.command?_accept o.bench 0
      have hbench := Workbench.accept_eq_handle o.bench 0
      rw [hcommand, ← hbench] at hkey
      exact ⟨hkey.1, hkey.2.congr hbench hcommand.symm⟩
    | presses k =>
      refine ⟨fun s hs => ?_, Workbench.follows_of_session rfl rfl⟩
      have hquiet := hrecorded.tells.quiet (e := { what := .presses k }) fun _ _ => ⟨rfl, rfl, rfl⟩
      obtain ⟨hsession, hwaits⟩ := hquiet s hs
      refine ⟨hsession, fun task htask howner => ?_⟩
      rw [items_send] at htask
      rcases List.mem_append.1 htask with htask | htask
      · exact hwaits task htask howner
      · obtain rfl := List.mem_singleton.1 htask
        cases howner
    | carries s htask hbench => exact tells_carry hrecorded.tells htask hbench
    | @handles i d now hd =>
      have hbefore : o.bench.Tells (.ended (some d) :: (o.without i).items) h :=
        hrecorded.tells.of_items fun task htask =>
          ⟨task, (items_without hd).mem_iff.2 htask, rfl, rfl⟩
      have hhandle := Workbench.tells_handle hbefore
        (Workbench.Sound.perm hrecorded.sound (items_without hd)) now
        (e := { what := .handles d, command := (o.bench.handle now d).command?,
                saved := o.bench.savedBy? d }) rfl rfl
      exact ⟨tells_after hhandle.1, hhandle.2.congr rfl rfl⟩
  exact ⟨⟨sound_move hrecorded.sound hmove, htells.1, hfresh⟩, htells.2⟩

theorem recorded_start (store : Option Store) (client : Option ChatClient) (settings : Settings)
    (capabilities : Capabilities) : (start store client settings capabilities).Recorded [] :=
  ⟨Workbench.sound_start store client settings capabilities, fun _ hs => (by cases hs),
    fun _ _ => ⟨rfl, rfl⟩⟩

/-- A chronicle that is continued. -/
theorem recorded_append {earlier : List Entry} (hearlier : o.Recorded earlier)
    (hrun : Chronicle o h o') : o'.Recorded (earlier ++ h) := by
  induction hrun with
  | nil =>
    rw [List.append_nil]
    exact hearlier
  | snoc _ hmove ih =>
    rw [← List.append_assoc]
    exact (recorded_move ih hmove).1

theorem recorded_of_chronicle (hstart : o.Recorded []) (hrun : Chronicle o h o') :
    o'.Recorded h := recorded_append hstart hrun

end Office
end Intake
