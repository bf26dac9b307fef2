import Intake.Proofs.Batch.Replied
import Intake.Proofs.Chat.Reading
import Intake.Proofs.Session.Heard

/-!
# Streamed replies

The step of a session's model, run over a reply that arrives in parts, and a
batch run that is given the same reply at once come to the same.  How the
reply was split plays no part.

There are four groups.

* Sessions.  `foldl_replyGrown` says what pieces of a reply change.
* Chains.  One round of a chain of commands.
* Listening.  `Workshop.Listens` is the invariant while a reply is read;
  `listens_run` says what a number of chunks brings about and
  `listens_end` what the end does.
* Agreement.  `streamed_eq_replied` is the result.
-/

namespace Intake

open Text

/-! ## Sessions -/

namespace Session

/-- Pieces of a reply change what was received and the lines that are shown,
and nothing else. -/
theorem foldl_replyGrown (s : Session) {texts : List String}
    (h : ∀ text ∈ texts, text.isEmpty = false) :
    texts.foldl replyGrown s =
      { s with received := s.received ++ texts
               llm := { s.llm with logs := if texts = [] then s.llm.logs
                                      else linesOf (String.join (s.received ++ texts)) } } := by
  induction texts generalizing s with
  | nil => simp
  | cons text rest ih =>
    have hpiece : s.replyGrown text = { s with
        received := s.received ++ [text]
        llm := { s.llm with logs := linesOf (String.join (s.received ++ [text])) } } :=
      if_neg (by rw [h text List.mem_cons_self]; exact Bool.false_ne_true)
    rw [List.foldl_cons, ih _ fun t ht => h t (List.mem_cons_of_mem _ ht), hpiece]
    cases rest with
    | nil => simp
    | cons t rest => simp

end Session

namespace Workshop

/-! ## Chains -/

variable {s s' s'' : Workshop}

theorem remaining_pos (s : Workshop) : 0 < s.remaining := by
  rw [remaining]
  omega

/-- A command that ends as soon as it begins is not waited for. -/
theorem await_of_begin {c : Command} {d : Option Delivery} (h : begin c s = (.ended d, s')) :
    await (.fresh c) s = (d, s') := by
  obtain ⟨n, hn⟩ := Nat.exists_eq_succ_of_ne_zero (Nat.pos_iff_ne_zero.1 s.remaining_pos)
  have hproceed : proceed (.fresh c) s = (.ended d, s') := h
  show awaitWithin s.remaining (.fresh c) s = _
  rw [hn]
  show (proceed (.fresh c) >>= _) s = _
  simp only [bind, StateT.bind, hproceed]
  rfl

/-- Handling changes the workbench and the records. -/
theorem handle_eq (d : Delivery) (s : Workshop) :
    ∃ now site, handle d s = ((s.bench.handle now d).outcome,
      { s with bench := (s.bench.handle now d).bench, site := site }) :=
  ⟨s.site.book.clock, _, rfl⟩

/-- One round of a chain. -/
theorem driveWithin_of_handle {c : Command} {d : Delivery} {next : Option Command}
    (hawait : await (.fresh c) s = (some d, s')) (hhandle : handle d s' = (.ok next, s''))
    (fuel handled : Nat) :
    driveWithin (fuel + 1) handled (some c) s = driveWithin fuel (handled + 1) next s'' := by
  show (await (.fresh c) >>= _) s = _
  simp only [bind, StateT.bind, hawait, hhandle]

theorem driveWithin_zero (handled : Nat) (c : Option Command) (s : Workshop) :
    driveWithin 0 handled c s = (.ok handled, s) := rfl

theorem driveWithin_none (fuel handled : Nat) (s : Workshop) :
    driveWithin fuel handled none s = (.ok handled, s) := by
  cases fuel with
  | zero => rfl
  | succ fuel => rfl

/-! ## Listening -/

/-- The open session reads its reply from a stream, and these pieces of text
are still to come. -/
structure Listens (s : Workshop) (x : Session) (i : Nat) (texts : List String) : Prop where
  session : s.bench.session = some x
  reply : x.reply = some i
  unfired : s.hasFired x.number = false
  stream : ∃ stream, s.streams[i]? = some stream ∧ stream.Yields texts

variable {x : Session} {i : Nat} {texts : List String}

/-- A chunk that has arrived is read without waiting. -/
theorem await_awaitChunk (hunfired : s.hasFired x.number = false) {stream : ChatStream}
    (hstream : s.streams[i]? = some stream) {c : Chunk} (hread : stream.read.1 = .chunk c) :
    ∃ site, await (.fresh (.awaitChunk x.number (some i))) s =
      (some (.chunk x.number c),
        { s with streams := s.streams.set i stream.read.2.2, site := site }) := by
  have hbegin : begin (.awaitChunk x.number (some i)) s = poll (.awaitChunk x.number (some i)) s :=
    rfl
  have hpoll := poll_awaitChunk s x.number i
  rw [hunfired, if_neg Bool.false_ne_true, readChunk, hstream] at hpoll
  simp only [hread] at hpoll
  exact ⟨_, await_of_begin (hbegin.trans hpoll)⟩

theorem onChunk_of_text (w : Workbench) (now : Float) (x : Session) (text : String) :
    w.onChunk now x { text := text } =
      ⟨w.withSession (x.replyGrown text), .ok (some (.awaitChunk (x.replyGrown text).number
        (x.replyGrown text).reply))⟩ := rfl

theorem replyGrown_frames (x : Session) (text : String) :
    (x.replyGrown text).number = x.number ∧ (x.replyGrown text).reply = x.reply := by
  obtain ⟨received, logs, hgrown, -⟩ := Workbench.replyGrown_eq x text
  rw [hgrown]
  exact ⟨rfl, rfl⟩

/-- One chunk with text. -/
theorem listens_step {text : String} (h : s.Listens x i (text :: texts)) :
    ∃ s', s'.Listens (x.replyGrown text) i texts ∧ ∀ fuel handled,
      driveWithin (fuel + 1) handled (some (.awaitChunk x.number (some i))) s =
        driveWithin fuel (handled + 1) (some (.awaitChunk x.number (some i))) s' := by
  obtain ⟨stream, hstream, hyields⟩ := h.stream
  obtain ⟨hread, -, hrest⟩ := hyields.read_cons
  obtain ⟨site, hawait⟩ := await_awaitChunk h.unfired hstream hread
  obtain ⟨hnumber, hreply⟩ := replyGrown_frames x text
  obtain ⟨now, site', hhandle⟩ := handle_eq (.chunk x.number { text := text })
    { s with streams := s.streams.set i stream.read.2.2, site := site }
  have hturn : s.bench.handle now (.chunk x.number { text := text }) =
      ⟨s.bench.withSession (x.replyGrown text), .ok (some (.awaitChunk x.number (some i)))⟩ := by
    rw [Workbench.handle_of_owner h.session rfl]
    show s.bench.onChunk now x { text := text } = _
    rw [onChunk_of_text, hnumber, hreply, h.reply]
  simp only [hturn] at hhandle
  refine ⟨_, ⟨rfl, hreply.trans h.reply, ?_, stream.read.2.2, ?_, hrest⟩,
    driveWithin_of_handle hawait hhandle⟩
  · rw [hnumber]
    exact h.unfired
  · exact List.getElem?_set_self (List.getElem?_eq_some_iff.1 hstream).1

/-- A number of chunks with text, one after the other. -/
theorem listens_run (h : s.Listens x i texts) {k : Nat} (hk : k ≤ texts.length) :
    ∃ s', s'.Listens ((texts.take k).foldl Session.replyGrown x) i (texts.drop k) ∧
      ∀ fuel handled, driveWithin (fuel + k) handled (some (.awaitChunk x.number (some i))) s =
        driveWithin fuel (handled + k) (some (.awaitChunk x.number (some i))) s' := by
  induction k generalizing s x texts with
  | zero => exact ⟨s, h, fun fuel handled => rfl⟩
  | succ k ih =>
    cases texts with
    | nil => exact absurd hk (Nat.not_succ_le_zero k)
    | cons text rest =>
      obtain ⟨s₁, hs₁, hfirst⟩ := listens_step h
      obtain ⟨s₂, hs₂, hmore⟩ := ih hs₁ (Nat.le_of_succ_le_succ hk)
      rw [(replyGrown_frames x text).1] at hmore
      refine ⟨s₂, hs₂, fun fuel handled => ?_⟩
      rw [← Nat.add_assoc, hfirst, hmore, Nat.add_assoc, Nat.add_comm 1 k]

/-- What becomes of a session whose reply has ended. -/
def concluded (x : Session) : Session :=
  match Reply.read x.replyText with
  | .ok hints => x.replyRead hints
  | .error (.malformed m) => x.replyRefused m
  | .error .overflow => x

/-- Behind all text comes the end, and the reply is read. -/
theorem listens_end (h : s.Listens x i [])
    (hread : Reply.read x.replyText ≠ .error .overflow) :
    ∃ s' now, s'.bench.session = some (concluded (x.replyEnded now)) ∧ ∀ fuel handled,
      driveWithin (fuel + 1) handled (some (.awaitChunk x.number (some i))) s =
        (.ok (handled + 1), s') := by
  obtain ⟨stream, hstream, hyields⟩ := h.stream
  obtain ⟨site, hawait⟩ := await_awaitChunk h.unfired hstream hyields.read_nil.1
  obtain ⟨now, site', hhandle⟩ := handle_eq (.chunk x.number .last)
    { s with streams := s.streams.set i stream.read.2.2, site := site }
  have hturn : ∃ w, w.session = some (concluded (x.replyEnded now)) ∧
      s.bench.handle now (.chunk x.number .last) = ⟨w, .ok none⟩ := by
    rw [Workbench.handle_of_owner h.session rfl]
    show ∃ w, _ ∧ s.bench.readReply (x.replyEnded now) = _
    have htext : (x.replyEnded now).replyText = x.replyText := rfl
    rw [Workbench.readReply, concluded, htext]
    cases hreply : Reply.read x.replyText with
    | ok hints => exact ⟨_, rfl, rfl⟩
    | error failure =>
      cases failure with
      | malformed m => exact ⟨_, rfl, rfl⟩
      | overflow => exact absurd hreply hread
  obtain ⟨w, hw, hturn⟩ := hturn
  simp only [hturn] at hhandle
  refine ⟨{ s with bench := w, site := site', streams := s.streams.set i stream.read.2.2 }, now, hw,
    fun fuel handled => ?_⟩
  rw [driveWithin_of_handle hawait hhandle, driveWithin_none]

/-- The model is asked, and its stream is open. -/
theorem listens_openReply (hsession : s.bench.session = some x)
    (hunfired : s.hasFired x.number = false) {client : ChatClient} {messages : List Message}
    {stream : ChatStream} (hstream : (s.site.desk.openStream client messages).1 = .ok stream)
    (hyields : stream.Yields texts) :
    ∃ s', s'.Listens { x with reply := some s.streams.length } s.streams.length texts ∧
      ∀ fuel handled, driveWithin (fuel + 1) handled (some (.openReply x.number client messages)) s =
        driveWithin fuel (handled + 1) (some (.awaitChunk x.number (some s.streams.length))) s' := by
  have hbegin : ∃ site, begin (.openReply x.number client messages) s =
      (.ended (some (.replyOpened x.number s.streams.length)),
        { s with site := site, streams := s.streams ++ [stream] }) := by
    rcases hanswer : s.site.desk.openStream client messages with ⟨answer, seconds, desk⟩
    rw [hanswer] at hstream
    obtain rfl : answer = .ok stream := hstream
    have hopen : openReply x.number client messages s =
        (some (.replyOpened x.number s.streams.length), { s with
          site := { s.site with desk := desk, book := s.site.book.tick seconds }
          streams := s.streams ++ [stream] }) := by
      rw [openReply, hanswer]
    refine ⟨{ s.site with desk := desk, book := s.site.book.tick seconds }, ?_⟩
    show (if s.hasFired x.number then _ else _ : StateM Workshop Task) s = _
    rw [if_neg (by rw [hunfired]; exact Bool.false_ne_true)]
    simp only [bind, StateT.bind, hopen]
    rfl
  obtain ⟨site, hbegin⟩ := hbegin
  obtain ⟨now, site', hhandle⟩ := handle_eq (.replyOpened x.number s.streams.length)
    { s with site := site, streams := s.streams ++ [stream] }
  have hturn : s.bench.handle now (.replyOpened x.number s.streams.length) =
      ⟨s.bench.withSession { x with reply := some s.streams.length },
        .ok (some (.awaitChunk x.number (some s.streams.length)))⟩ := by
    rw [Workbench.handle_of_owner hsession rfl]
    rfl
  simp only [hturn] at hhandle
  refine ⟨{ s with
    bench := s.bench.withSession { x with reply := some s.streams.length }
    site := site'
    streams := s.streams ++ [stream] }, ⟨rfl, rfl, hunfired, stream, ?_, hyields⟩,
    driveWithin_of_handle (await_of_begin hbegin) hhandle⟩
  exact List.getElem?_concat_length

/-! ### Bounds -/

theorem le_foldl_add {n : Nat} {counts : List Nat} (h : n ∈ counts) :
    n ≤ counts.foldl (· + ·) 0 := by
  rw [← List.sum_eq_foldl]
  exact List.le_sum_of_mem h

/-- A bound on what is still to come counts the parts of a stream before the
model has been asked for it. -/
theorem length_lt_remaining {client : ChatClient} {messages : List Message} {stream : ChatStream}
    {parts : List Part} (hstream : (s.site.desk.openStream client messages).1 = .ok stream)
    (hsupply : stream.supply = .response parts) : parts.length + 16 ≤ s.remaining := by
  have hcounted : ∀ counts : List Nat,
      parts.length ≤ ((parts.length + 4) :: counts).foldl (· + ·) 0 := fun counts =>
    (Nat.le_add_right _ 4).trans (le_foldl_add List.mem_cons_self)
  rw [Desk.openStream] at hstream
  dsimp only [remaining]
  split at hstream
  · cases hstreams : s.site.desk.streams with
    | nil =>
      rw [hstreams] at hstream
      cases hstream
    | cons first rest =>
      rw [hstreams] at hstream
      obtain rfl : first = stream := Except.ok.inj hstream
      rw [List.cons_append, List.map_cons]
      simp only [hsupply]
      generalize List.map _ (rest ++ s.streams) = counts
      have hle := hcounted counts
      omega
  · cases hreplies : s.site.desk.replies with
    | nil =>
      simp only [Desk.takeReply, hreplies, List.headD_nil, Response.none] at hstream
      cases hstream
    | cons r rest =>
      simp only [Desk.takeReply, hreplies, List.headD_cons] at hstream
      rw [List.map_cons]
      cases hanswer : r.answer with
      | refuses e =>
        rw [hanswer] at hstream
        cases hstream
      | whole text =>
        rw [hanswer] at hstream
        obtain rfl := Except.ok.inj hstream
        obtain rfl : [.delta text] = parts := Supply.response.inj hsupply
        dsimp only
        generalize List.map _ rest = counts
        have hle := hcounted counts
        rw [List.length_singleton] at hle ⊢
        omega
      | streamed parts' =>
        rw [hanswer] at hstream
        obtain rfl := Except.ok.inj hstream
        obtain rfl : parts' = parts := Supply.response.inj hsupply
        dsimp only
        generalize List.map _ rest = counts
        have hle := hcounted counts
        omega

end Workshop

/-! ## Agreement -/

namespace Office

variable {o o' : Office} {h : List Entry} {e : Entry}

/-- A session whose model has just been asked. -/
structure Asked (w : Workbench) (x : Session) : Prop where
  session : w.session = some x
  unfired : x.number ∉ w.fired
  running : x.llm.status = .running
  done : x.done = false
  hints : x.hints = none
  received : String.join x.received = ""

/-- The session for which a move asks the model. -/
theorem asked_of_move (hrecorded : o.Recorded h) (hmove : Move o e o') {n : Nat}
    {client : ChatClient} {messages : List Message}
    (hcommand : e.command = some (.openReply n client messages)) :
    ∃ x, Asked o'.bench x ∧ x.number = n := by
  obtain ⟨hrecorded', hfollows⟩ := recorded_move hrecorded hmove
  obtain ⟨x, hx, hnumber⟩ := hfollows.attended _ hcommand
  obtain rfl : x.number = n := hnumber
  have hattends := hrecorded'.sound.session x hx
  obtain ⟨k?, hstands, hworks⟩ := hattends.stands
  have hlayer : some LayerKind.llm = k? :=
    hworks.layer _ (mem_items_of_command hmove hcommand) rfl
  subst hlayer
  have hrunning : x.llm.status = .running := hstands.llm.2
  obtain ⟨cs, hcs, hjoin⟩ := (hrecorded'.tells x hx).1.reply.asked hrunning
  rw [Entry.latestReply_append, hcommand, replyAfter_openReply] at hcs
  obtain rfl : [] = cs := Option.some.inj hcs
  refine ⟨x, ⟨hx, hattends.unfired, hrunning, hstands.done, ?_, hjoin⟩, rfl⟩
  have hhints := hstands.hints
  rw [hrunning] at hhints
  rw [← Option.not_isSome_iff_eq_none, hhints]
  exact StepStatus.noConfusion

variable {x : Session}

/-- A session whose model is at work and has said this much. -/
structure Hears (x : Session) (n : Nat) (text : String) : Prop where
  number : x.number = n
  running : x.llm.status = .running
  done : x.done = false
  hints : x.hints = none
  text : x.replyText = text

/-- The session after pieces of a reply. -/
theorem hears_of_asked {w : Workbench} (h : Asked w x) (i : Nat) {texts : List String}
    (htexts : ∀ text ∈ texts, text.isEmpty = false) :
    Hears (texts.foldl Session.replyGrown { x with reply := some i }) x.number
        (String.join texts) ∧
      (texts ≠ [] → (texts.foldl Session.replyGrown { x with reply := some i }).llm.logs =
        linesOf (String.join texts)) := by
  have hjoin : String.join (x.received ++ texts) = String.join texts := by
    rw [String.join_append, h.received, String.empty_append]
  rw [Session.foldl_replyGrown _ htexts]
  refine ⟨⟨rfl, h.running, h.done, h.hints, hjoin⟩, fun hne => ?_⟩
  refine (if_neg hne).trans ?_
  exact congrArg linesOf hjoin

/-- What the end of a reply leaves behind. -/
theorem frames_concluded (x : Session) (hread : Reply.read x.replyText ≠ .error .overflow) :
    (Workshop.concluded x).number = x.number ∧ (Workshop.concluded x).done = true ∧
      (Workshop.concluded x).llm.metric = x.llm.metric := by
  rw [Workshop.concluded]
  cases hreply : Reply.read x.replyText with
  | ok hints => exact ⟨rfl, rfl, rfl⟩
  | error failure =>
    cases failure with
    | malformed m => exact ⟨rfl, rfl, rfl⟩
    | overflow => exact absurd hreply hread

/-- A session and a batch run make the same of a reply. -/
theorem agrees_concluded (hhints : x.hints = none) {text : String} (htext : x.replyText = text)
    (hread : Reply.read text ≠ .error .overflow) (j : Job) {r : Report} (hr : Batch.Unasked r) :
    ∃ report, Batch.replied j r text = .ok report ∧ (Workshop.concluded x).hints = report.hints ∧
      ((Workshop.concluded x).llm.status = .failed ↔ report.errors.has .llmParse = true) := by
  subst htext
  rw [Workshop.concluded, Batch.replied]
  cases hreply : Reply.read x.replyText with
  | ok hints =>
    refine ⟨_, rfl, rfl, fun hfailed => absurd hfailed StepStatus.noConfusion, fun hhas => ?_⟩
    exact absurd (hr.replies.symm.trans hhas) Bool.false_ne_true
  | error failure =>
    cases failure with
    | malformed m =>
      refine ⟨_, rfl, hhints.trans hr.hints.symm, fun _ => ?_, fun _ => rfl⟩
      exact (ErrorLog.has_add _ _ _).2 (Or.inr rfl)
    | overflow => exact absurd hreply hread

end Office

open Office

/-- The step of a session's model, run over a stream, shows the lines of the
text that has arrived.  It ends with the hints that a batch run is given by
the whole reply, or it fails where that run records a reply that is no JSON
object.  How the reply was split plays no part. -/
theorem streamed_eq_replied {store : Option Store} {client? : Option ChatClient}
    {settings : Settings} {capabilities : Capabilities} {o o' : Office} {h : List Entry} {e : Entry}
    (hrun : Chronicle (.start store client? settings capabilities) h o) (hmove : Move o e o')
    {n : Nat} {client : ChatClient} {messages : List Message}
    (hcommand : e.command = some (.openReply n client messages)) {s : Workshop}
    (hbench : s.bench = o'.bench) {stream : ChatStream} {parts : List Part}
    (hstream : (s.site.desk.openStream client messages).1 = .ok stream)
    (hsupply : stream.supply = .response parts) (hopen : stream.finished = false)
    (hflows : ∀ part ∈ parts, part.Flows)
    (hread : Reply.read (Part.joined parts) ≠ .error .overflow) :
    (∀ k ≤ (Part.texts parts).length, ∃ s' x,
      Workshop.driveWithin (k + 1) 0 (some (.openReply n client messages)) s = (.ok (k + 1), s') ∧
        s'.bench.session = some x ∧ x.number = n ∧ x.done = false ∧ x.llm.status = .running ∧
        (k ≠ 0 → x.llm.logs = linesOf (String.join ((Part.texts parts).take k)))) ∧
      ∃ s' x, Workshop.drive (some (.openReply n client messages)) s =
          (.ok ((Part.texts parts).length + 2), s') ∧
        s'.bench.session = some x ∧ x.number = n ∧ x.done = true ∧
        x.llm.metric = StepInfo.charsText (Part.joined parts).length ∧
        ∀ (j : Job) (t : Site) (client' : ChatClient) (r : Report) (t' : Site),
          Batch.ReachesModel j t client' r t' → t'.desk.reply? = some (Part.joined parts) →
            ∃ report, (Batch.run j t).1 = .ok report ∧ x.hints = report.hints ∧
              (x.llm.status = .failed ↔ report.errors.has .llmParse = true) := by
  have hrecorded := recorded_of_chronicle (recorded_start store client? settings capabilities) hrun
  obtain ⟨x, hasked, rfl⟩ := asked_of_move hrecorded hmove hcommand
  have hsession : s.bench.session = some x := by rw [hbench, hasked.session]
  have hunfired : s.hasFired x.number = false := by
    rw [Workshop.hasFired, hbench, Workbench.hasFired]
    simpa using hasked.unfired
  have htexts : ∀ text ∈ Part.texts parts, text.isEmpty = false := Part.isEmpty_of_mem_texts parts
  obtain ⟨s₁, hlistens, hfirst⟩ := Workshop.listens_openReply hsession hunfired hstream
    ⟨parts, hsupply, hopen, hflows, rfl⟩
  constructor
  · intro k hk
    obtain ⟨s₂, hs₂, hmore⟩ := Workshop.listens_run hlistens hk
    obtain ⟨hhears, hlogs⟩ := hears_of_asked hasked s.streams.length
      fun text htext => htexts text (List.mem_of_mem_take htext)
    refine ⟨s₂, _, ?_, hs₂.session, hhears.number, hhears.done, hhears.running, fun hne => ?_⟩
    · have hchunks := hmore 0 1
      rw [Nat.zero_add] at hchunks
      rw [hfirst, hchunks, Workshop.driveWithin_zero, Nat.add_comm]
    · refine hlogs fun hnil => hne ?_
      have hlength := congrArg List.length hnil
      rw [List.length_take_of_le hk] at hlength
      exact hlength
  · obtain ⟨s₂, hs₂, hmore⟩ := Workshop.listens_run hlistens le_rfl
    obtain ⟨hhears, -⟩ := hears_of_asked hasked s.streams.length htexts
    rw [List.take_length, List.drop_length] at hs₂
    generalize (Part.texts parts).foldl Session.replyGrown _ = y at hs₂ hhears
    have hreply : Reply.read y.replyText ≠ .error .overflow := by
      rw [hhears.text]
      exact hread
    obtain ⟨s₃, now, hs₃, hlast⟩ := Workshop.listens_end hs₂ hreply
    obtain ⟨hnumber, hdone, hmetric⟩ := frames_concluded (y.replyEnded now) hreply
    rw [hhears.number] at hlast
    refine ⟨s₃, _, ?_, hs₃, hnumber.trans hhears.number, hdone, ?_, ?_⟩
    · have hlength := Part.length_texts_le parts
      have hbound := Workshop.length_lt_remaining hstream hsupply
      obtain ⟨fuel, hfuel⟩ : ∃ fuel, 2 * s.remaining = fuel + 1 + (Part.texts parts).length + 1 :=
        ⟨2 * s.remaining - (Part.texts parts).length - 2, by omega⟩
      have hhandled : 0 + 1 + (Part.texts parts).length + 1 = (Part.texts parts).length + 2 := by
        omega
      show Workshop.driveWithin (2 * s.remaining) 0 _ s = _
      rw [hfuel, hfirst, hmore, hlast, hhandled]
    · rw [hmetric]
      exact congrArg (fun text => StepInfo.charsText text.length) hhears.text
    · intro j t client' r t' hreach hgiven
      rw [Batch.run_of_reply hreach hgiven]
      have hhints : (y.replyEnded now).hints = none := hhears.hints
      have htext : (y.replyEnded now).replyText = Part.joined parts := hhears.text
      exact agrees_concluded hhints htext hread j hreach.unasked

/-- A reply in two pieces with parts between them that hold no text. -/
def pieces : List Part := [.delta (some "\x7b"), .delta none, .noChoice, .delta (some "\x7d")]

/-- An office with a model and nothing else. -/
def writingRoom : Office := .start none (some { model := "m" }) { model := "m" } ⟨false, false, false⟩

/-- The turn that opens a note. -/
def noteGiven : Turn :=
  Workshop.turnOf { bench := writingRoom.bench } (Workshop.open 1 "a.txt" [120] "text/plain" "x")

/-- A workshop whose model streams the reply. -/
def murmuring : Workshop where
  bench := noteGiven.bench
  site := { desk := { replies := [{ answer := .streamed pieces }] } }

/-- A site whose model gives the whole reply. -/
def outright : Site where
  desk := { replies := [{ answer := .whole (some "\x7b\x7d") }] }

theorem streamed_pieces : ∃ messages s' x,
    Workshop.drive (some (.openReply 1 { model := "m" } messages)) murmuring = (.ok 4, s') ∧
      s'.bench.session = some x ∧ x.llm.metric = "2 chars" ∧
      ∃ report, (Batch.run Batch.note outright).1 = .ok report ∧ x.hints = report.hints ∧
        (x.llm.status = .failed ↔ report.errors.has .llmParse = true) := by
  have hmove : Move writingRoom (entry .opens noteGiven) (writingRoom.after noteGiven) :=
    .opens _ (.given 1 "a.txt" [120] "text/plain" "x") rfl
  have hflows : ∀ part ∈ pieces, part.Flows := by simp [pieces, Part.Flows]
  have hisOk : (Reply.read (Part.joined pieces)).isOk = true := by decide +kernel
  have hread : Reply.read (Part.joined pieces) ≠ .error .overflow := by
    intro hoverflow
    rw [hoverflow] at hisOk
    exact absurd hisOk Bool.false_ne_true
  have hreach : ∃ r t, Batch.ReachesModel Batch.note outright { model := "m" } r t ∧
      t.desk.reply? = some (Part.joined pieces) :=
    ⟨_, _, ⟨rfl, rfl, _, _, ⟨rfl, rfl⟩, rfl⟩, rfl⟩
  obtain ⟨r, t, hreach, hreply⟩ := hreach
  obtain ⟨-, s', x, hdrive, hsession, -, -, hmetric, hagrees⟩ :=
    streamed_eq_replied .nil hmove (n := 1) rfl (s := murmuring) rfl rfl rfl rfl hflows hread
  exact ⟨_, s', x, hdrive, hsession, hmetric, hagrees _ _ _ r t hreach hreply⟩

end Intake
